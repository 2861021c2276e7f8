import HeaderBook.Proofs.PathNames

/-!
# What stands in a file tree

What stands below an entry is read name by name, so it can be read in two parts. The
names that a directory shows are those under which something stands, each once, and no
location is longer than the tree is high.

In a tree all of whose names are legal, a path that leads to a directory leads on to the
files and directories that stand in it, as long as it does not become too long.
-/

namespace HeaderBook

namespace Entry

/-- What stands below an entry can be looked up in two parts. -/
theorem get?_append (entry : Entry) (location rest : Location) :
    entry.get? (location ++ rest) = (entry.get? location).bind (·.get? rest) := by
  induction location generalizing entry with
  | nil => rfl
  | cons name location inductionHypothesis =>
      simp only [List.cons_append, get?]
      cases entry.entries.lookup name with
      | none => rfl
      | some held => exact inductionHypothesis held

@[simp] theorem get?_singleton (entry : Entry) (name : CodeText) :
    entry.get? [name] = entry.entries.lookup name := by
  simp only [get?]
  cases entry.entries.lookup name with
  | none => rfl
  | some held => rfl

/-- What stands below an entry is found among its own entries. -/
theorem get?_concat {entry held : Entry} {location : Location}
    (found : entry.get? location = some held) (name : CodeText) :
    entry.get? (location ++ [name]) = held.entries.lookup name := by
  rw [get?_append, found, Option.bind_some, get?_singleton]

/-- Only in a directory does something stand. -/
theorem exists_directory_of_lookup {entry held : Entry} {name : CodeText}
    (found : entry.entries.lookup name = some held) : ∃ inner, entry = .directory inner := by
  cases entry with
  | directory inner => exact ⟨inner, rfl⟩
  | file content => cases found
  | link target => cases found

/-- An entry without what stands in it. -/
def face : Entry → Entry
  | .file content => .file content
  | .directory _ => .directory []
  | .link target => .link target

/-- A file is all that its face shows. -/
theorem face_eq_file_iff {entry : Entry} {content : Bytes} :
    entry.face = .file content ↔ entry = .file content := by
  cases entry <;> simp [face]

/-- A link is all that its face shows. -/
theorem face_eq_link_iff {entry : Entry} {target : Text} :
    entry.face = .link target ↔ entry = .link target := by
  cases entry <;> simp [face]

/-- Of a directory the face shows only that it is one. -/
theorem face_eq_directory_iff {entry : Entry} :
    entry.face = .directory [] ↔ ∃ held, entry = .directory held := by
  cases entry <;> simp [face]

/-- A directory shows the names under which something stands. -/
theorem mem_names_iff {entry : Entry} {name : CodeText} :
    name ∈ entry.names ↔ ∃ held, entry.entries.lookup name = some held := by
  rw [names, List.mem_eraseDups, ← Option.isSome_iff_exists, List.lookup_isSome_iff, List.mem_map]
  simp only [beq_iff_eq]
  refine exists_congr fun pair => and_congr_right fun _ => ?_
  exact eq_comm

/-- A directory shows each name once. -/
theorem nodup_names (entry : Entry) : entry.names.Nodup := by
  unfold names
  generalize entry.entries.map Prod.fst = shown
  -- Each round keeps the first name and drops it from the rest, which gets no longer.
  induction length : shown.length using Nat.strongRecOn generalizing shown with
  | ind number inductionHypothesis =>
      cases shown with
      | nil => simp
      | cons name rest =>
          rw [List.eraseDups_cons, List.nodup_cons]
          constructor
          · simp
          · have shorter : (rest.filter fun other => !other == name).length < number := by
              have bound := List.length_filter_le (fun other => !other == name) rest
              rw [List.length_cons] at length
              omega
            exact inductionHypothesis _ shorter _ rfl

/-- What stands in a directory, and all that stands below it, is listed. -/
theorem mem_withinAll {here : Location} {entries : List (CodeText × Entry)} {name : CodeText}
    {held : Entry} (member : (name, held) ∈ entries) :
    (here ++ [name], held) ∈ withinAll here entries ∧
      ∀ item ∈ held.within (here ++ [name]), item ∈ withinAll here entries := by
  induction entries with
  | nil => cases member
  | cons first rest inductionHypothesis =>
      obtain ⟨other, entry⟩ := first
      simp only [withinAll, List.mem_cons, List.mem_append]
      rcases List.mem_cons.mp member with equal | later
      · cases equal
        exact ⟨.inl rfl, fun item within => .inr (.inl within)⟩
      · obtain ⟨listed, below⟩ := inductionHypothesis later
        exact ⟨.inr (.inr listed), fun item within => .inr (.inr (below item within))⟩

/-- All that stands below an entry is listed by its location. -/
theorem mem_within {entry held : Entry} {location : Location} (here : Location)
    (below : location ≠ []) (found : entry.get? location = some held) :
    (here ++ location, held) ∈ entry.within here := by
  induction location generalizing entry here with
  | nil => exact absurd rfl below
  | cons name rest inductionHypothesis =>
      obtain ⟨inner, child, further⟩ := Option.bind_eq_some_iff.mp found
      obtain ⟨entries, rfl⟩ := exists_directory_of_lookup child
      have member : (name, inner) ∈ entries := by
        rw [entries_directory, List.lookup_eq_some_iff] at child
        obtain ⟨before, after, rfl, _⟩ := child
        simp
      obtain ⟨listed, lower⟩ := @mem_withinAll here entries name inner member
      rw [within]
      cases rest with
      | nil =>
          obtain rfl : inner = held := Option.some.inj further
          exact listed
      | cons next rest =>
          have inside := inductionHypothesis (here ++ [name]) (List.cons_ne_nil next rest) further
          rw [List.append_assoc, List.singleton_append] at inside
          exact lower _ inside

end Entry

namespace FileTree

/-- All names in a tree are such as a file system can hold. -/
def WellNamed (tree : FileTree) : Prop :=
  ∀ location held, tree.get? location = some held → ∀ name ∈ location, FileName.Legal name

/-- A tree is well named if its entries have legal names. -/
theorem wellNamed_of_all {tree : FileTree}
    (legal : ∀ item ∈ tree.all, ∀ name ∈ item.1, FileName.Legal name) : tree.WellNamed := by
  intro location held found name member
  have listed := Entry.mem_within [] (List.ne_nil_of_mem member) found
  exact legal _ listed name member

theorem get?_concat {tree : FileTree} {location : Location} {held : Entry}
    (found : tree.get? location = some held) (name : CodeText) :
    tree.get? (location ++ [name]) = held.entries.lookup name :=
  Entry.get?_concat found name

/-- The greatest of some numbers is no less than each. -/
theorem le_foldl_max (numbers : List Nat) (start : Nat) :
    start ≤ numbers.foldl max start ∧ ∀ number ∈ numbers, number ≤ numbers.foldl max start := by
  induction numbers generalizing start with
  | nil => simp
  | cons first rest inductionHypothesis =>
      obtain ⟨above, all⟩ := inductionHypothesis (max start first)
      simp only [List.foldl_cons, List.forall_mem_cons]
      refine ⟨?_, ?_, all⟩
      · omega
      · omega

/-- No location is longer than the tree is high. -/
theorem length_le_height {tree : FileTree} {location : Location} {held : Entry}
    (found : tree.get? location = some held) : location.length ≤ tree.height := by
  cases location with
  | nil => exact Nat.zero_le _
  | cons name rest =>
      have listed := Entry.mem_within [] (List.cons_ne_nil name rest) found
      exact (le_foldl_max _ 0).2 _ (List.mem_map.mpr ⟨_, listed, rfl⟩)

/-- A walk ends at an entry where that entry stands, if following a link does. -/
theorem get?_of_walkAlong {tree : FileTree} {purpose : Purpose}
    {follow : Location → List CodeText → Except Fault Arrival} {here location : Location}
    {names : List CodeText} {held : Entry}
    (followed : ∀ here names, follow here names = .ok (.entry location held) →
      tree.get? location = some held)
    (walked : tree.walkAlong purpose follow here names = .ok (.entry location held)) :
    tree.get? location = some held := by
  fun_induction walkAlong tree purpose follow here names with
  | case1 here entry found =>
      cases walked
      exact found
  | case2 | case5 | case6 | case7 | case8 | case11 => cases walked
  | case3 _ _ _ _ inductionHypothesis => exact inductionHypothesis walked
  | case4 _ _ _ inductionHypothesis => exact inductionHypothesis walked
  | case9 _ _ _ _ _ _ _ _ _ inductionHypothesis => exact inductionHypothesis walked
  | case10 _ _ _ _ _ _ _ _ found =>
      cases walked
      exact found
  | case12 _ _ _ _ _ _ _ _ found =>
      cases walked
      exact found
  | case13 => exact followed _ _ walked

/-- A walk ends at an entry where that entry stands. -/
theorem get?_of_walkFrom {tree : FileTree} {purpose : Purpose} {links : Nat} {here location : Location}
    {names : List CodeText} {held : Entry}
    (walked : tree.walkFrom purpose links here names = .ok (.entry location held)) :
    tree.get? location = some held := by
  induction links generalizing here names with
  | zero => exact get?_of_walkAlong (fun _ _ lost => by cases lost) walked
  | succ links inductionHypothesis =>
      exact get?_of_walkAlong (fun _ _ => inductionHypothesis) walked

/-- A name by which a walk goes on to an entry, when `rest` is still to come. -/
structure Ordinary (purpose : Purpose) (name : CodeText) (rest : List CodeText) : Prop where
  counts : ¬ (name = [] ∨ name = Path.here)
  ne_above : name ≠ Path.above
  /-- Only slashes after the last name would ask for a directory. -/
  unslashed : ¬ (purpose = .writing ∧ rest ≠ [] ∧ rest.all List.isEmpty)
  short : ¬ nameLimit < FileName.size name

section

variable {tree : FileTree} {purpose : Purpose}
  {follow : Location → List CodeText → Except Fault Arrival} {here : Location} {name : CodeText}
  {rest : List CodeText}

/-- Empty names and full stops lead nowhere else. -/
theorem walkAlong_skipped (skipped : name = [] ∨ name = Path.here) :
    tree.walkAlong purpose follow here (name :: rest) = tree.walkAlong purpose follow here rest := by
  rw [walkAlong, if_pos skipped]

/-- Two full stops lead one name back. -/
theorem walkAlong_above :
    tree.walkAlong purpose follow here (Path.above :: rest) =
      tree.walkAlong purpose follow here.dropLast rest := by
  rw [walkAlong, if_neg (by decide), if_pos rfl]

variable (ordinary : Ordinary purpose name rest)

include ordinary

/-- A name under which nothing stands ends the walk. -/
theorem walkAlong_missing (missing : tree.get? (here ++ [name]) = none) :
    tree.walkAlong purpose follow here (name :: rest) =
      if rest.isEmpty then .ok (.vacant here name) else .error .notFound := by
  rw [walkAlong, if_neg ordinary.counts, if_neg ordinary.ne_above, if_neg ordinary.unslashed,
    if_neg ordinary.short, missing]

/-- The name of a directory leads into it. -/
theorem walkAlong_directory {inner : List (CodeText × Entry)}
    (stands : tree.get? (here ++ [name]) = some (.directory inner)) :
    tree.walkAlong purpose follow here (name :: rest) =
      tree.walkAlong purpose follow (here ++ [name]) rest := by
  rw [walkAlong, if_neg ordinary.counts, if_neg ordinary.ne_above, if_neg ordinary.unslashed,
    if_neg ordinary.short, stands]

/-- A file ends the walk. -/
theorem walkAlong_file {content : Bytes} (stands : tree.get? (here ++ [name]) = some (.file content)) :
    tree.walkAlong purpose follow here (name :: rest) =
      if rest.isEmpty then .ok (.entry (here ++ [name]) (.file content))
      else .error .notDirectory := by
  rw [walkAlong, if_neg ordinary.counts, if_neg ordinary.ne_above, if_neg ordinary.unslashed,
    if_neg ordinary.short, stands]

variable {target : Text} (stands : tree.get? (here ++ [name]) = some (.link target))

include stands

/-- The last name may be that of a link which is looked for. -/
theorem walkAlong_link (last : rest.isEmpty ∧ purpose = .entry) :
    tree.walkAlong purpose follow here (name :: rest) =
      .ok (.entry (here ++ [name]) (.link target)) := by
  rw [walkAlong, if_neg ordinary.counts, if_neg ordinary.ne_above, if_neg ordinary.unslashed,
    if_neg ordinary.short, stands]
  exact if_pos last

/-- Any other link is followed. -/
theorem walkAlong_followed (followed : ¬ (rest.isEmpty ∧ purpose = .entry)) {fromRoot : Bool}
    {further : List CodeText} (targeted : targetNames target = (fromRoot, further)) :
    tree.walkAlong purpose follow here (name :: rest) =
      follow (if fromRoot then [] else here) (further ++ rest) := by
  rw [walkAlong, if_neg ordinary.counts, if_neg ordinary.ne_above, if_neg ordinary.unslashed,
    if_neg ordinary.short, stands]
  simp only [if_neg followed, targeted]

end

section

variable {tree : FileTree} {location : Location} {held : List (CodeText × Entry)}

/-- What comes to a directory goes on from there by one more name, if following a link
does. -/
theorem walkAlong_concat {follow : Location → List CodeText → Except Fault Arrival} {links : Nat}
    (whole : tree.walkAlong .target follow = tree.walkFrom .target links) {name : CodeText}
    (followed : ∀ here names, follow here names = .ok (.entry location (.directory held)) →
      ∃ left, follow here (names ++ [name]) = tree.walkFrom .target left location [name])
    {here : Location} {names : List CodeText}
    (walked : tree.walkAlong .target follow here names = .ok (.entry location (.directory held))) :
    ∃ left, tree.walkAlong .target follow here (names ++ [name]) =
      tree.walkFrom .target left location [name] := by
  have ordinary {first : CodeText} (rest : List CodeText) (counts : ¬ (first = [] ∨ first = Path.here))
      (notAbove : first ≠ Path.above) (short : ¬ nameLimit < FileName.size first) :
      Ordinary .target first (rest ++ [name]) :=
    ⟨counts, notAbove, by simp, short⟩
  fun_induction walkAlong tree .target follow here names with
  | case1 here entry found =>
      cases walked
      exact ⟨links, by rw [← whole, List.nil_append]⟩
  | case2 | case5 | case6 | case7 | case8 | case10 | case11 | case12 => cases walked
  | case3 here first rest skipped inductionHypothesis =>
      rw [List.cons_append, walkAlong_skipped skipped]
      exact inductionHypothesis walked
  | case4 here rest _ inductionHypothesis =>
      rw [List.cons_append, walkAlong_above]
      exact inductionHypothesis walked
  | case9 here first rest counts notAbove _ short inner stands inductionHypothesis =>
      rw [List.cons_append, walkAlong_directory (ordinary rest counts notAbove short) stands]
      exact inductionHypothesis walked
  | case13 here first rest counts notAbove _ short target stands _ fromRoot further targeted =>
      rw [List.cons_append, walkAlong_followed (ordinary rest counts notAbove short) stands (by simp)
        targeted, ← List.append_assoc]
      exact followed _ _ walked

/-- A walk that comes to a directory goes on from there by one more name. -/
theorem walkFrom_concat {links : Nat} {here : Location} {names : List CodeText}
    (walked : tree.walkFrom .target links here names = .ok (.entry location (.directory held)))
    (name : CodeText) :
    ∃ left, tree.walkFrom .target links here (names ++ [name]) =
      tree.walkFrom .target left location [name] := by
  induction links generalizing here names with
  | zero =>
      have whole : tree.walkAlong .target _ = tree.walkFrom .target 0 := rfl
      exact walkAlong_concat whole (fun _ _ lost => by cases lost) walked
  | succ links inductionHypothesis =>
      have whole : tree.walkAlong .target _ = tree.walkFrom .target (links + 1) := rfl
      exact walkAlong_concat whole (fun _ _ => inductionHypothesis) walked

end

/-- A walk goes along names and follows links in some way. -/
theorem exists_walkAlong (tree : FileTree) (purpose : Purpose) (links : Nat) :
    ∃ follow, tree.walkFrom purpose links = tree.walkAlong purpose follow := by
  cases links with
  | zero => exact ⟨_, rfl⟩
  | succ links => exact ⟨_, rfl⟩

/-- One name leads from a directory to what stands there, be it no link. -/
theorem walkFrom_singleton {tree : FileTree} {here : Location} {name : CodeText}
    (legal : FileName.Legal name) {held : Entry} (stands : tree.get? (here ++ [name]) = some held)
    (solid : ∀ target, held ≠ .link target) (links : Nat) :
    tree.walkFrom .target links here [name] = .ok (.entry (here ++ [name]) held) := by
  have ordinary : Ordinary .target name [] :=
    ⟨not_or.mpr ⟨legal.ne_nil, legal.ne_here⟩, legal.ne_above, by simp, Nat.not_lt.mpr legal.fits⟩
  obtain ⟨follow, equal⟩ := exists_walkAlong tree .target links
  rw [equal]
  cases held with
  | file content => rw [walkAlong_file ordinary stands, List.isEmpty_nil, if_pos rfl]
  | directory inner => rw [walkAlong_directory ordinary stands, walkAlong, stands]
  | link target => exact absurd rfl (solid target)

end FileTree

namespace Directory

open FileTree (refusal?)

variable {here : Directory} {path : Path}

/-- An entry is found at the end of a walk along a path that is not refused. -/
theorem find_eq_some_iff {held : Entry} :
    here.find path = .ok (some held) ↔
      refusal? path = none ∧ ∃ location, here.walk .target path = .ok (.entry location held) := by
  constructor
  · intro found
    unfold find at found
    split at found
    · cases found
    next location entry free walked =>
      obtain rfl := Option.some.inj (Except.ok.inj found)
      exact ⟨free, location, walked⟩
    · cases found
    · cases found
  · rintro ⟨free, location, walked⟩
    rw [find, free, walked]

/-- A walk succeeds exactly when its path is short enough and leads somewhere. -/
theorem walk_eq_ok_iff {purpose : FileTree.Purpose} {arrival : FileTree.Arrival} :
    here.walk purpose path = .ok arrival ↔ FileName.size path.text < FileTree.pathLimit ∧
      here.tree.walkFrom purpose FileTree.linkLimit (here.origin path) path.location = .ok arrival := by
  unfold walk
  split
  next long =>
    constructor
    · intro equal
      cases equal
    · rintro ⟨short, _⟩
      exact absurd short (Nat.not_lt.mpr long)
  next short => exact ⟨fun walked => ⟨Nat.not_le.mp short, walked⟩, And.right⟩

/-- The location at which a walk along a path finds its entry. -/
theorem exists_location_of_find {held : Entry} (found : here.find path = .ok (some held)) :
    ∃ location, here.walk .target path = .ok (.entry location held) ∧
      here.tree.get? location = some held := by
  obtain ⟨_, location, walked⟩ := find_eq_some_iff.mp found
  exact ⟨location, walked, FileTree.get?_of_walkFrom (walk_eq_ok_iff.mp walked).2⟩

/-- A path that leads to a directory leads on by a name to what stands there, if that is
no link and the path does not become too long. -/
theorem walk_entry {location : Location} {inner : List (CodeText × Entry)}
    (walked : here.walk .target path = .ok (.entry location (.directory inner)))
    {name : CodeText} (legal : FileName.Legal name) {held : Entry}
    (stands : inner.lookup name = some held) (solid : ∀ target, held ≠ .link target)
    (short : FileName.size (path.entry name).text < FileTree.pathLimit) :
    here.walk .target (path.entry name) = .ok (.entry (location ++ [name]) held) := by
  obtain ⟨_, walked⟩ := walk_eq_ok_iff.mp walked
  obtain ⟨left, onward⟩ := FileTree.walkFrom_concat walked name
  have reached : here.tree.get? (location ++ [name]) = some held :=
    (FileTree.get?_concat (FileTree.get?_of_walkFrom walked) name).trans stands
  refine walk_eq_ok_iff.mpr ⟨short, ?_⟩
  rw [Path.location_entry legal]
  exact onward.trans (FileTree.walkFrom_singleton legal reached solid left)

/-- A path that leads to a directory leads on by a name to what stands there, or the path
is too long. -/
theorem find_entry {inner : List (CodeText × Entry)}
    (found : here.find path = .ok (some (.directory inner))) {name : CodeText}
    (legal : FileName.Legal name) {held : Entry} (stands : inner.lookup name = some held)
    (solid : ∀ target, held ≠ .link target) :
    here.find (path.entry name) = .ok (some held) ∨
      here.find (path.entry name) = .error (.fault .nameTooLong (path.entry name)) := by
  obtain ⟨free, location, walked⟩ := find_eq_some_iff.mp found
  have free := FileTree.refusal?_entry legal free
  rcases Nat.lt_or_ge (FileName.size (path.entry name).text) FileTree.pathLimit with short | long
  · exact .inl (find_eq_some_iff.mpr ⟨free, _, walk_entry walked legal stands solid short⟩)
  · refine .inr ?_
    rw [find, free, walk, if_pos long]

end Directory

end HeaderBook
