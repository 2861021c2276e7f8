import Mathlib.Data.List.Perm.Basic
import HeaderBook.Proofs.ResolvedPath
import HeaderBook.Proofs.TreeView

/-!
# Listings in another order

A file system may list what stands in a directory in any order. `Entry.Reordered` relates
two entries that differ in the order of their listings only. What can be read of such
trees is the same: what stands at a location, up to the order in which a directory lists
it, where a walk ends, what a path is resolved to, and so the whole outcome of a scan.
-/

namespace HeaderBook

namespace Entry

/-- Two entries differ in the order in which directories are listed, and in nothing else. -/
inductive Reordered : Entry → Entry → Prop where
  | refl (entry : Entry) : Reordered entry entry
  | trans {first second third : Entry} (before : Reordered first second)
      (after : Reordered second third) : Reordered first third
  /-- One directory is listed in another order. No name stands in it twice. -/
  | permuted {held held' : List (CodeText × Entry)} (distinct : (held.map Prod.fst).Nodup)
      (order : held.Perm held') : Reordered (.directory held) (.directory held')
  /-- Something that stands in a directory is reordered. -/
  | inside {before after : List (CodeText × Entry)} {name : CodeText} {entry entry' : Entry}
      (change : Reordered entry entry') :
      Reordered (.directory (before ++ (name, entry) :: after))
        (.directory (before ++ (name, entry') :: after))

/-- Whether an entry is a directory is seen from its face. -/
theorem isDirectory_eq_of_face {entry entry' : Entry} (same : entry'.face = entry.face) :
    entry'.isDirectory = entry.isDirectory := by
  cases entry <;> cases entry' <;> simp_all [face, isDirectory]

/-- A test that sees only faces gives the same answer on the same faces. -/
theorem any_eq_of_face {held held' : Option Entry} (same : held'.map face = held.map face)
    {holds holds' : Entry → Bool}
    (blind : ∀ entry entry' : Entry, entry'.face = entry.face → holds' entry' = holds entry) :
    held'.any holds' = held.any holds := by
  cases held with
  | none => rw [Option.map_eq_none_iff.mp same, Option.any_none, Option.any_none]
  | some entry =>
      obtain ⟨entry', rfl, equal⟩ := Option.map_eq_some_iff.mp same
      exact blind entry entry' equal

/-- Distinct names are found in any order. -/
theorem lookup_perm {held held' : List (CodeText × Entry)} (order : held.Perm held')
    (distinct : (held.map Prod.fst).Nodup) (name : CodeText) :
    held.lookup name = held'.lookup name := by
  induction order with
  | nil => rfl
  | cons first _ inductionHypothesis =>
      rw [List.map_cons, List.nodup_cons] at distinct
      rw [List.lookup_cons, List.lookup_cons, inductionHypothesis distinct.2]
  | swap first second rest =>
      obtain ⟨one, held⟩ := first
      obtain ⟨other, held'⟩ := second
      simp only [List.map_cons, List.nodup_cons, List.mem_cons, not_or] at distinct
      simp only [List.lookup_cons]
      by_cases here : name = one
      · have apart : (name == other) = false :=
          beq_eq_false_iff_ne.mpr fun equal => distinct.1.1 (equal.symm.trans here)
        simp only [apart]
      · simp only [beq_eq_false_iff_ne.mpr here]
  | trans before _ first second =>
      rw [first distinct, second ((before.map Prod.fst).nodup_iff.mp distinct)]

/-- The same stands at every location, but for the order of listings. -/
theorem Reordered.face_get? {first second : Entry} (reordered : Reordered first second)
    (location : Location) : (first.get? location).map face = (second.get? location).map face := by
  induction reordered generalizing location with
  | refl entry => rfl
  | trans _ _ before after => exact (before location).trans (after location)
  | permuted distinct order =>
      cases location with
      | nil => rfl
      | cons name rest => simp [get?, lookup_perm order distinct name]
  | @inside before after name entry entry' change inductionHypothesis =>
      cases location with
      | nil => rfl
      | cons other rest =>
          simp only [get?, entries_directory, List.lookup_append, List.lookup_cons]
          cases before.lookup other with
          | some held => rfl
          | none =>
              cases other == name with
              | true => exact inductionHypothesis rest
              | false => rfl

/-- The entries below two listings are those below each. -/
theorem withinAll_append (here : Location) (before after : List (CodeText × Entry)) :
    withinAll here (before ++ after) = withinAll here before ++ withinAll here after := by
  induction before with
  | nil => rw [withinAll, List.nil_append, List.nil_append]
  | cons first before inductionHypothesis =>
      simp [withinAll, inductionHypothesis]

/-- The entries below a listing are the same in any order of it. -/
theorem perm_withinAll {held held' : List (CodeText × Entry)} (order : held.Perm held')
    (here : Location) : (withinAll here held).Perm (withinAll here held') := by
  induction order with
  | nil => exact .refl _
  | cons first _ inductionHypothesis =>
      simp only [withinAll]
      exact (inductionHypothesis.append_left _).cons _
  | swap first second rest =>
      have split (one other : CodeText × Entry) : withinAll here (one :: other :: rest) =
          withinAll here [one] ++ withinAll here [other] ++ withinAll here rest := by
        rw [← withinAll_append, ← withinAll_append]
        rfl
      rw [split, split]
      exact List.perm_append_comm.append_right _
  | trans _ _ before after => exact before.trans after

/-- Something stands at the same locations. -/
theorem Reordered.perm_locations {first second : Entry} (reordered : Reordered first second)
    (here : Location) :
    ((first.within here).map Prod.fst).Perm ((second.within here).map Prod.fst) := by
  induction reordered generalizing here with
  | refl entry => exact .refl _
  | trans _ _ before after => exact (before here).trans (after here)
  | permuted _ order =>
      simp only [within]
      exact (perm_withinAll order here).map Prod.fst
  | inside change inductionHypothesis =>
      simp only [within, withinAll_append, withinAll, List.map_append, List.map_cons]
      exact (((inductionHypothesis _).append_right _).cons _).append_left _

end Entry

namespace FileTree

/-- An arrival without what stands in the entry that was reached. -/
def Arrival.face : Arrival → Arrival
  | .entry location held => .entry location held.face
  | .vacant directory name => .vacant directory name

section

variable {tree tree' : FileTree}
  (faces : ∀ location, (tree.get? location).map Entry.face = (tree'.get? location).map Entry.face)

include faces

/-- Nothing stands where nothing stood. -/
theorem get?_eq_none_of_faces {location : Location} (missing : tree.get? location = none) :
    tree'.get? location = none := by
  have same := faces location
  rw [missing] at same
  exact Option.map_eq_none_iff.mp same.symm

/-- An entry with the same face stands where one stood. -/
theorem exists_get?_of_faces {location : Location} {held : Entry}
    (stands : tree.get? location = some held) :
    ∃ held', tree'.get? location = some held' ∧ held'.face = held.face := by
  have same := faces location
  rw [stands] at same
  exact Option.map_eq_some_iff.mp same.symm

/-- Going along names ends in the same way, if following a link does. -/
theorem face_walkAlong (purpose : Purpose)
    {follow follow' : Location → List CodeText → Except Fault Arrival}
    (followed : ∀ here names,
      (follow here names).map Arrival.face = (follow' here names).map Arrival.face)
    (here : Location) (names : List CodeText) :
    (tree.walkAlong purpose follow here names).map Arrival.face =
      (tree'.walkAlong purpose follow' here names).map Arrival.face := by
  -- The recursion is on the names alone: at a link it ends, and `followed` takes over.
  fun_induction walkAlong tree purpose follow here names with
  | case1 here held stands =>
      obtain ⟨held', stands', same⟩ := exists_get?_of_faces faces stands
      rw [walkAlong, stands']
      simp only [Except.map, Arrival.face, same]
  | case2 here missing =>
      rw [walkAlong, get?_eq_none_of_faces faces missing]
  | case3 here name rest skipped inductionHypothesis =>
      rw [walkAlong_skipped skipped]
      exact inductionHypothesis
  | case4 here rest _ inductionHypothesis =>
      rw [walkAlong_above]
      exact inductionHypothesis
  | case5 here name rest counts notAbove slashed =>
      rw [walkAlong, if_neg counts, if_neg notAbove, if_pos slashed]
  | case6 here name rest counts notAbove unslashed long =>
      rw [walkAlong, if_neg counts, if_neg notAbove, if_neg unslashed, if_pos long]
  | case7 here name rest counts notAbove unslashed short missing last =>
      rw [walkAlong_missing ⟨counts, notAbove, unslashed, short⟩
        (get?_eq_none_of_faces faces missing), if_pos last]
  | case8 here name rest counts notAbove unslashed short missing more =>
      rw [walkAlong_missing ⟨counts, notAbove, unslashed, short⟩
        (get?_eq_none_of_faces faces missing), if_neg more]
  | case9 here name rest counts notAbove unslashed short inner stands inductionHypothesis =>
      obtain ⟨held', stands', same⟩ := exists_get?_of_faces faces stands
      obtain ⟨inner', rfl⟩ := Entry.face_eq_directory_iff.mp same
      rw [walkAlong_directory ⟨counts, notAbove, unslashed, short⟩ stands']
      exact inductionHypothesis
  | case10 here name rest counts notAbove unslashed short content stands last =>
      obtain ⟨held', stands', same⟩ := exists_get?_of_faces faces stands
      obtain rfl := Entry.face_eq_file_iff.mp same
      rw [walkAlong_file ⟨counts, notAbove, unslashed, short⟩ stands', if_pos last]
  | case11 here name rest counts notAbove unslashed short content stands more =>
      obtain ⟨held', stands', same⟩ := exists_get?_of_faces faces stands
      obtain rfl := Entry.face_eq_file_iff.mp same
      rw [walkAlong_file ⟨counts, notAbove, unslashed, short⟩ stands', if_neg more]
  | case12 here name rest counts notAbove unslashed short target stands last =>
      obtain ⟨held', stands', same⟩ := exists_get?_of_faces faces stands
      obtain rfl := Entry.face_eq_link_iff.mp same
      rw [walkAlong_link ⟨counts, notAbove, unslashed, short⟩ stands' last]
  | case13 here name rest counts notAbove unslashed short target stands more fromRoot further
      targeted =>
      obtain ⟨held', stands', same⟩ := exists_get?_of_faces faces stands
      obtain rfl := Entry.face_eq_link_iff.mp same
      rw [walkAlong_followed ⟨counts, notAbove, unslashed, short⟩ stands' more targeted]
      exact followed _ _

/-- A walk ends in the same way. -/
theorem face_walkFrom (purpose : Purpose) (links : Nat) (here : Location) (names : List CodeText) :
    (tree.walkFrom purpose links here names).map Arrival.face =
      (tree'.walkFrom purpose links here names).map Arrival.face := by
  induction links generalizing here names with
  | zero => exact face_walkAlong faces purpose (fun _ _ => rfl) here names
  | succ links inductionHypothesis =>
      exact face_walkAlong faces purpose inductionHypothesis here names

end

end FileTree

namespace Directory

open FileTree (Purpose Fault refusal?)

/-- Two file trees seen from the same current directory differ in the order of listings. -/
structure Reordered (here there : Directory) : Prop where
  current : here.current = there.current
  tree : Entry.Reordered here.tree.root there.tree.root

/-- Two walks that end in the same way, but for the order of listings. -/
inductive SameWalk (here there : Directory) (purpose : Purpose) (path : Path) : Prop where
  | faulty (fault : Fault) (walked : here.walk purpose path = .error fault)
      (walked' : there.walk purpose path = .error fault)
  | entry (location : Location) (held held' : Entry) (same : held'.face = held.face)
      (walked : here.walk purpose path = .ok (.entry location held))
      (walked' : there.walk purpose path = .ok (.entry location held'))
  | vacant (directory : Location) (name : CodeText)
      (walked : here.walk purpose path = .ok (.vacant directory name))
      (walked' : there.walk purpose path = .ok (.vacant directory name))

namespace Reordered

variable {here there : Directory} (reordered : here.Reordered there)

include reordered

/-- Reordered trees have the same faces everywhere. -/
theorem faces (location : Location) :
    (here.tree.get? location).map Entry.face = (there.tree.get? location).map Entry.face :=
  reordered.tree.face_get? location

/-- Reordered trees have the same locations. -/
theorem perm_locations : (here.tree.all.map Prod.fst).Perm (there.tree.all.map Prod.fst) :=
  reordered.tree.perm_locations []

/-- Reordered trees have the same height. -/
theorem height_eq : here.tree.height = there.tree.height := by
  have lengths := reordered.perm_locations.map List.length
  rw [List.map_map, List.map_map] at lengths
  exact lengths.foldl_eq 0

/-- Every walk through reordered trees ends in the same way. -/
theorem sameWalk (purpose : Purpose) (path : Path) : SameWalk here there purpose path := by
  have same : (here.walk purpose path).map FileTree.Arrival.face =
      (there.walk purpose path).map FileTree.Arrival.face := by
    unfold walk
    split
    · rfl
    · rw [origin, origin, reordered.current]
      exact FileTree.face_walkFrom reordered.faces _ _ _ _
  cases walked : here.walk purpose path with
  | error fault =>
      cases walked' : there.walk purpose path with
      | error fault' =>
          rw [walked, walked'] at same
          obtain rfl := Except.error.inj same
          exact .faulty fault walked walked'
      | ok arrival' =>
          rw [walked, walked'] at same
          cases same
  | ok arrival =>
      cases walked' : there.walk purpose path with
      | error fault' =>
          rw [walked, walked'] at same
          cases same
      | ok arrival' =>
          rw [walked, walked'] at same
          have same := Except.ok.inj same
          cases arrival with
          | entry location held =>
              cases arrival' with
              | entry location' held' =>
                  obtain ⟨rfl, equal⟩ := FileTree.Arrival.entry.inj same
                  exact .entry location held held' equal.symm walked walked'
              | vacant directory name => cases same
          | vacant directory name =>
              cases arrival' with
              | entry location' held' => cases same
              | vacant directory' name' =>
                  obtain ⟨rfl, rfl⟩ := FileTree.Arrival.vacant.inj same
                  exact .vacant directory name walked walked'

/-- A path that leads to an entry leads to its counterpart, in which the same stands. -/
theorem find_some {path : Path} {held : Entry} (found : here.find path = .ok (some held)) :
    ∃ held', there.find path = .ok (some held') ∧ held'.face = held.face ∧
      ∀ name, (held'.entries.lookup name).map Entry.face = (held.entries.lookup name).map Entry.face := by
  obtain ⟨free, location, walked⟩ := find_eq_some_iff.mp found
  cases reordered.sameWalk .target path with
  | faulty fault other => cases walked.symm.trans other
  | vacant directory name other => cases walked.symm.trans other
  | entry location held held' same other walked' =>
      cases walked.symm.trans other
      refine ⟨held', find_eq_some_iff.mpr ⟨free, location, walked'⟩, same, fun name => ?_⟩
      have stands := FileTree.get?_of_walkFrom (walk_eq_ok_iff.mp walked).2
      have stands' := FileTree.get?_of_walkFrom (walk_eq_ok_iff.mp walked').2
      rw [← FileTree.get?_concat stands, ← FileTree.get?_concat stands', reordered.faces]

/-- Where no entry is found, the answer is the same in the other tree. -/
theorem find_eq_of_not_some {path : Path} (lost : ∀ held, here.find path ≠ .ok (some held)) :
    there.find path = here.find path := by
  unfold find
  cases refused : refusal? path with
  | some failure => rfl
  | none =>
      cases reordered.sameWalk .target path with
      | faulty fault walked walked' => rw [walked, walked']
      | vacant directory name walked walked' => rw [walked, walked']
      | entry location held held' same walked walked' =>
          exact absurd (find_eq_some_iff.mpr ⟨refused, location, walked⟩) (lost held)

/-- What is done with an entry that was found comes to the same, if it does not look at
what stands in the entry. -/
theorem find_bind_eq {β : Type} (path : Path) {next : Option Entry → Except FileTree.Failure β}
    (blind : ∀ held held' : Entry, held'.face = held.face → next (some held') = next (some held)) :
    there.find path >>= next = here.find path >>= next := by
  by_cases found : ∃ held, here.find path = .ok (some held)
  · obtain ⟨held, found⟩ := found
    obtain ⟨held', found', same, _⟩ := reordered.find_some found
    rw [found, found']
    exact blind held held' same
  · rw [reordered.find_eq_of_not_some (not_exists.mp found)]

/-- The same paths lead to files. -/
theorem isFile_eq (path : Path) : there.isFile path = here.isFile path := by
  refine reordered.find_bind_eq path fun held held' same => ?_
  cases held with
  | file content => rw [Entry.face_eq_file_iff.mp same]
  | directory inner =>
      obtain ⟨inner', rfl⟩ := Entry.face_eq_directory_iff.mp same
      rfl
  | link target => rw [Entry.face_eq_link_iff.mp same]

/-- The same paths lead to directories. -/
theorem isDirectory_eq (path : Path) : there.isDirectory path = here.isDirectory path := by
  refine reordered.find_bind_eq path fun held held' same => ?_
  cases held with
  | file content => rw [Entry.face_eq_file_iff.mp same]
  | directory inner =>
      obtain ⟨inner', rfl⟩ := Entry.face_eq_directory_iff.mp same
      rfl
  | link target => rw [Entry.face_eq_link_iff.mp same]

/-- The same paths lead to links, with the same targets. -/
theorem walk_link {path : Path} {location : Location} {target : Text}
    (walked : here.walk .entry path = .ok (.entry location (.link target))) :
    there.walk .entry path = .ok (.entry location (.link target)) := by
  cases reordered.sameWalk .entry path with
  | faulty fault other => cases walked.symm.trans other
  | vacant directory name other => cases walked.symm.trans other
  | entry location held held' same other walked' =>
      cases walked.symm.trans other
      rw [walked', Entry.face_eq_link_iff.mp same]

/-- The same steps are taken, whatever is done about links. -/
theorem resolveAlong_eq
    (follow : Option (KnownLinks → Path → List Step → Except FileTree.Failure Path))
    (known : KnownLinks) (path : Path) (steps : List Step) :
    there.resolveAlong follow known path steps = here.resolveAlong follow known path steps := by
  fun_induction resolveAlong here follow known path steps with
  | case1 known path => rw [resolveAlong]
  | case2 known path link rest inductionHypothesis => rw [resolveAlong, inductionHypothesis]
  | case3 known path name rest skipped inductionHypothesis =>
      rw [resolveAlong, if_pos skipped, inductionHypothesis]
  | case4 known path rest counts inductionHypothesis =>
      rw [resolveAlong, if_neg counts, if_pos rfl, inductionHypothesis]
  | case5 known path name rest counts notAbove next failure refused =>
      rw [resolveAlong, if_neg counts, if_neg notAbove]
      simp only [next, refused]
  | case6 known path name rest counts notAbove next location target walked free place lookup
      inductionHypothesis =>
      rw [resolveAlong, if_neg counts, if_neg notAbove]
      simp only [next, free, reordered.walk_link walked, lookup, inductionHypothesis]
  | case7 known path name rest counts notAbove next location target walked free lookup =>
      rw [resolveAlong, if_neg counts, if_neg notAbove]
      simp only [next, free, reordered.walk_link walked, lookup]
  | case8 known path name rest counts notAbove next location target walked free lookup given =>
      rw [resolveAlong, if_neg counts, if_neg notAbove]
      simp only [next, free, reordered.walk_link walked, lookup, given]
  | case9 known path name rest counts notAbove next location target walked free lookup go given
      fromRoot further targeted =>
      rw [resolveAlong, if_neg counts, if_neg notAbove]
      simp only [next, free, reordered.walk_link walked, lookup, given, targeted]
  | case10 known path name rest counts notAbove next free noLink inductionHypothesis =>
      rw [resolveAlong, if_neg counts, if_neg notAbove, ← inductionHypothesis]
      -- Only links make a difference here, and there is one in both trees or in neither.
      cases reordered.sameWalk .entry next with
      | faulty fault walked walked' => simp only [next, free, walked']
      | vacant directory other walked walked' => simp only [next, free, walked']
      | entry location held held' same walked walked' =>
          cases held' with
          | file content => simp only [next, free, walked']
          | directory inner => simp only [next, free, walked']
          | link target =>
              rw [Entry.face_eq_link_iff.mp same.symm] at walked
              exact (noLink location target walked).elim

/-- Links are followed to the same end. -/
theorem resolveFrom_eq (links : Nat) : there.resolveFrom links = here.resolveFrom links := by
  induction links with
  | zero =>
      funext known path steps
      exact reordered.resolveAlong_eq none known path steps
  | succ links inductionHypothesis =>
      funext known path steps
      rw [resolveFrom, resolveFrom, inductionHypothesis]
      exact reordered.resolveAlong_eq _ known path steps

/-- Paths are resolved alike. -/
theorem resolve_eq (path : Path) : there.resolve path = here.resolve path := by
  have links : there.tree.all.length = here.tree.all.length := by
    have lengths := reordered.perm_locations.length_eq
    rw [List.length_map, List.length_map] at lengths
    exact lengths.symm
  have absolute (resolved : Path) : there.absolute resolved = here.absolute resolved := by
    rw [Directory.absolute, Directory.absolute, reordered.current]
  unfold resolve
  simp only [links, reordered.resolveFrom_eq, absolute]
  refine bind_congr fun resolved => ?_
  cases refusal? (here.absolute resolved) with
  | some failure => rfl
  | none =>
      cases reordered.sameWalk .target (here.absolute resolved) with
      | faulty fault walked walked' => rw [walked, walked']
      | vacant directory name walked walked' => rw [walked, walked']
      | entry location held held' same walked walked' => rw [walked, walked']

end Reordered

end Directory

end HeaderBook
