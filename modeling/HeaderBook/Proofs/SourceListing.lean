import HeaderBook.Proofs.Reordering

/-!
# What a scan lists

A scan lists the regular files below its directory that no rule takes out. `Entered` says
which directories it goes into, `Unpruned` which files and links no rule takes out, and
`Regular` which of these are regular files. `Precedes` is the order of the list: of two
paths that part in a directory, a file of that directory comes before what lies in its
subdirectories, and otherwise the code points of the names decide.
-/

namespace HeaderBook

namespace CodeText

/-- Of two texts one comes first. -/
theorem le_total (left right : CodeText) : (le left right || le right left) = true := by
  induction left generalizing right with
  | nil => simp [le]
  | cons first left inductionHypothesis =>
      cases right with
      | nil => simp [le]
      | cons second right =>
          by_cases equal : first = second
          · subst equal
            simpa [le] using inductionHypothesis right
          · have apart : first.toNat ≠ second.toNat := fun same =>
              equal (CodePoint.toNat_injective same)
            simp only [le, Bool.or_eq_true, decide_eq_true_eq]
            omega

/-- The order of texts is transitive. -/
theorem le_trans {left middle right : CodeText} (first : le left middle = true)
    (second : le middle right = true) : le left right = true := by
  induction left generalizing middle right with
  | nil => rfl
  | cons a left inductionHypothesis =>
      cases middle with
      | nil => cases first
      | cons b middle =>
          cases right with
          | nil => cases second
          | cons c right =>
              simp only [le, Bool.or_eq_true, Bool.and_eq_true, decide_eq_true_eq] at first second ⊢
              rcases first with less | ⟨rfl, rest⟩
              · rcases second with less' | ⟨rfl, _⟩
                · exact .inl (Nat.lt_trans less less')
                · exact .inl less
              · rcases second with less' | ⟨rfl, rest'⟩
                · exact .inl less'
                · exact .inr ⟨rfl, inductionHypothesis rest rest'⟩

/-- Texts that come before each other are equal. -/
theorem le_antisymm {left right : CodeText} (first : le left right = true)
    (second : le right left = true) : left = right := by
  induction left generalizing right with
  | nil =>
      cases right with
      | nil => rfl
      | cons b right => cases second
  | cons a left inductionHypothesis =>
      cases right with
      | nil => cases first
      | cons b right =>
          simp only [le, Bool.or_eq_true, Bool.and_eq_true, decide_eq_true_eq] at first second
          rcases first with less | ⟨rfl, rest⟩
          · rcases second with less' | ⟨rfl, _⟩
            · exact absurd less (Nat.lt_asymm less')
            · exact absurd less (Nat.lt_irrefl _)
          · rcases second with less' | ⟨_, rest'⟩
            · exact absurd less' (Nat.lt_irrefl _)
            · rw [inductionHypothesis rest rest']

/-- Strictly before in code-point order. -/
def Before (left right : CodeText) : Prop :=
  le left right = true ∧ left ≠ right

/-- Putting a text among others adds it and nothing else. -/
theorem insert_perm (text : CodeText) (texts : List CodeText) :
    (insert text texts).Perm (text :: texts) := by
  fun_induction insert text texts with
  | case1 => exact .refl _
  | case2 => exact .refl _
  | case3 other rest _ inductionHypothesis =>
      exact (inductionHypothesis.cons other).trans (.swap text other rest)

/-- Sorting changes the order only. -/
theorem sort_perm (texts : List CodeText) : (sort texts).Perm texts := by
  induction texts with
  | nil => exact .refl _
  | cons text texts inductionHypothesis =>
      exact (insert_perm text (sort texts)).trans (inductionHypothesis.cons text)

/-- What is sorted is what was given. -/
@[simp] theorem mem_sort {text : CodeText} {texts : List CodeText} : text ∈ sort texts ↔ text ∈ texts :=
  (sort_perm texts).mem_iff

/-- A text is put where it keeps the order. -/
theorem pairwise_le_insert (text : CodeText) {texts : List CodeText}
    (ordered : texts.Pairwise fun left right => le left right = true) :
    (insert text texts).Pairwise fun left right => le left right = true := by
  fun_induction insert text texts with
  | case1 => exact List.pairwise_singleton _ _
  | case2 other rest first =>
      refine List.pairwise_cons.mpr ⟨?_, ordered⟩
      rw [List.forall_mem_cons]
      exact ⟨first, fun later member => le_trans first ((List.pairwise_cons.mp ordered).1 later member)⟩
  | case3 other rest notFirst inductionHypothesis =>
      obtain ⟨least, others⟩ := List.pairwise_cons.mp ordered
      have follows : le other text = true := by
        have total := le_total other text
        simpa [notFirst] using total
      refine List.pairwise_cons.mpr ⟨fun later member => ?_, inductionHypothesis others⟩
      rcases List.mem_cons.mp ((insert_perm text rest).mem_iff.mp member) with rfl | among
      · exact follows
      · exact least later among

/-- Sorted texts are in order. -/
theorem pairwise_le_sort (texts : List CodeText) :
    (sort texts).Pairwise fun left right => le left right = true := by
  induction texts with
  | nil => exact .nil
  | cons text texts inductionHypothesis => exact pairwise_le_insert text inductionHypothesis

/-- Texts of which none occurs twice are sorted in strict order. -/
theorem pairwise_sort {texts : List CodeText} (distinct : texts.Nodup) :
    (sort texts).Pairwise Before := by
  have apart : (sort texts).Nodup := (sort_perm texts).nodup_iff.mpr distinct
  exact (pairwise_le_sort texts).and apart

/-- The same texts are sorted into the same list. -/
theorem sort_eq_of_perm {texts texts' : List CodeText} (order : texts.Perm texts') :
    sort texts = sort texts' :=
  List.Perm.eq_of_pairwise (fun _ _ _ _ => le_antisymm) (pairwise_le_sort texts)
    (pairwise_le_sort texts') ((sort_perm texts).trans (order.trans (sort_perm texts').symm))

end CodeText

namespace SourceScan

open CodeText (Before)

/-- The path to which names lead from the scanned directory. -/
def relative (names : List CodeText) : CodeText :=
  Text.join [Path.slash] names

/-- The file to which names lead from the scanned directory. -/
def sourceFile (root : Path) (names : List CodeText) : SourceFile :=
  { path := relative names, absolute := root.descend names }

/-- The names that lead from the scanned directory to a file. -/
def names (file : SourceFile) : List CodeText :=
  Text.split Path.slash file.path

/-- The canonical order of the files below a directory, by the names that lead there:
first the files of the directory, then what lies in its subdirectories, both in
code-point order. -/
inductive Precedes : List CodeText → List CodeText → Prop where
  | files {first second : CodeText} (before : Before first second) : Precedes [first] [second]
  | fileFirst {first second : CodeText} {rest : List CodeText} (deeper : rest ≠ []) :
      Precedes [first] (second :: rest)
  | directories {first second : CodeText} {left right : List CodeText} (before : Before first second)
      (leftDeeper : left ≠ []) (rightDeeper : right ≠ []) :
      Precedes (first :: left) (second :: right)
  | within {name : CodeText} {left right : List CodeText} (precedes : Precedes left right) :
      Precedes (name :: left) (name :: right)

/-- What lies in the same directory keeps its order in the whole tree. -/
theorem Precedes.append (above : List CodeText) {left right : List CodeText}
    (precedes : Precedes left right) : Precedes (above ++ left) (above ++ right) := by
  induction above with
  | nil => exact precedes
  | cons name above inductionHypothesis => exact .within inductionHypothesis

/-- No path comes before itself. -/
theorem Precedes.irrefl {names : List CodeText} : ¬ Precedes names names := by
  induction names with
  | nil => intro precedes; cases precedes
  | cons name names inductionHypothesis =>
      intro precedes
      cases precedes with
      | files before => exact before.2 rfl
      | fileFirst deeper => exact deeper rfl
      | directories before _ _ => exact before.2 rfl
      | within precedes => exact inductionHypothesis precedes

/-- What stands at a path is a regular file or a link to one. -/
inductive Regular (here : Directory) (path : Path) : Entry → Prop where
  | file (content : Bytes) : Regular here path (.file content)
  | link {target : Text} (leads : here.isFile path = .ok true) : Regular here path (.link target)

section

variable (here : Directory) (patterns : List CodeText) (root : Path) (top : Entry)

/-- The scan goes into the directory to which names lead: it is no link, its name is not
passed over, no pattern takes it in, and its path leads to it. A path that is too long
leads nowhere. -/
structure Entered (names : List CodeText) : Prop where
  stands : ∃ inner, top.get? names = some (.directory inner)
  named : ∀ name ∈ names.getLast?, name ∉ passedDirectories
  kept : Glob.isExcluded patterns (relative names) = false
  led : here.find (root.descend names) = .ok (top.get? names)

/-- No rule of the scan takes out the file to which names lead: the scan goes into every
directory on the way, the file's name is not passed over, and no pattern takes it in. -/
structure Unpruned (names : List CodeText) : Prop where
  above : ∀ directory, directory ≠ [] → directory <+: names → directory ≠ names →
    Entered here patterns root top directory
  named : ∀ name ∈ names.getLast?, name ∉ passedFiles
  kept : Glob.isExcluded patterns (relative names) = false

/-- The scan lists the file to which names lead: no rule takes it out, and it is a
regular file or a link to one. -/
structure Listed (names : List CodeText) : Prop extends Unpruned here patterns root top names where
  regular : ∃ held, top.get? names = some held ∧ Regular here (root.descend names) held

/-- The scan asks whether names lead to a regular file: no rule takes out what stands
there, and it is neither a directory nor a link to one. -/
structure Tested (names : List CodeText) : Prop extends Unpruned here patterns root top names where
  stands : ∃ held, top.get? names = some held ∧
    leadsToDirectory here (root.descend names) held = false

end

section

variable {here : Directory} {patterns : List CodeText} {root : Path}
  {top : List (CodeText × Entry)}

variable (here) in
/-- The answer to whether a file's path leads to a regular file, if there is one. -/
def passes (file : SourceFile) : Bool :=
  (here.isFile file.absolute).toOption.getD false

/-- An answer that is given is the one that counts. -/
theorem passes_of_isFile {file : SourceFile} {answer : Bool}
    (answered : here.isFile file.absolute = .ok answer) : passes here file = answer := by
  rw [passes, answered]
  rfl

/-- A listed file passes by the answer for its path. -/
theorem passes_sourceFile {root : Path} {names : List CodeText} {answer : Bool}
    (answered : here.isFile (root.descend names) = .ok answer) :
    passes here (sourceFile root names) = answer :=
  @passes_of_isFile here (sourceFile root names) answer answered

/-- The entry that is found at a path is shown. -/
theorem shown_of_find {path : Path} {held : Entry} (found : here.find path = .ok (some held)) :
    shown here path = held := by
  rw [shown, found]

/-- Below a path that leads nowhere there is nothing to list. -/
theorem candidates_of_lost {path : Path} {failure : FileTree.Failure}
    (lost : here.find path = .error failure) (levels : Nat) (directory : CodeText) :
    candidates here patterns levels path directory = [] := by
  cases levels with
  | zero => rfl
  | succ levels =>
      have nothing : shown here path = .directory [] := by rw [shown, lost]
      simp [candidates, nothing, candidateNames, enteredNames, Entry.names, CodeText.sort]

/-- The candidates in a directory: no directories, not passed over, and not excluded. -/
theorem mem_candidateNames_iff {absolute : Path} {directory name : CodeText}
    {inner : List (CodeText × Entry)} :
    name ∈ candidateNames here patterns absolute directory (.directory inner) ↔
      (∃ held, inner.lookup name = some held ∧
        leadsToDirectory here (absolute.entry name) held = false) ∧
      name ∉ passedFiles ∧ Glob.isExcluded patterns (below directory name) = false := by
  rw [candidateNames, List.mem_filter, CodeText.mem_sort, Entry.mem_names_iff, Entry.get?_singleton,
    Entry.entries_directory]
  cases inner.lookup name with
  | none => simp
  | some held => simp [and_assoc]

/-- The directories that are entered: no links, not passed over, and not excluded. -/
theorem mem_enteredNames_iff {directory name : CodeText} {inner : List (CodeText × Entry)} :
    name ∈ enteredNames patterns directory (.directory inner) ↔
      (∃ held, inner.lookup name = some (.directory held)) ∧
      name ∉ passedDirectories ∧ Glob.isExcluded patterns (below directory name) = false := by
  rw [enteredNames, List.mem_filter, CodeText.mem_sort, Entry.mem_names_iff, Entry.get?_singleton,
    Entry.entries_directory]
  cases inner.lookup name with
  | none => simp
  | some held =>
      cases held with
      | directory deeper => simp [Entry.isDirectory]
      | file content => simp [Entry.isDirectory]
      | link target => simp [Entry.isDirectory]

/-- The text of a path below the root is extended by one name. -/
theorem below_relative {above : List CodeText} (named : ∀ name ∈ above, name ≠ []) (name : CodeText) :
    below (relative above) name = relative (above ++ [name]) := by
  cases above with
  | nil => simp [below, relative, Text.join]
  | cons first above =>
      have nonempty : (relative (first :: above)).isEmpty = false := by
        obtain ⟨code, rest, rfl⟩ := List.exists_cons_of_ne_nil (named first List.mem_cons_self)
        have inside : code ∈ relative ((code :: rest) :: above) :=
          Text.mem_join_of_mem List.mem_cons_self List.mem_cons_self
        rw [List.isEmpty_eq_false_iff]
        exact List.ne_nil_of_mem inside
      rw [below, nonempty, relative, relative, Text.join_concat (List.cons_ne_nil first above)]
      simp

variable (here patterns root top) in
/-- The scan comes to a directory: it goes into every directory on the way there, and
its path leads to it. -/
structure ComesTo (above : List CodeText) (location : Location) (inner : List (CodeText × Entry)) :
    Prop where
  stands : (Entry.directory top).get? above = some (.directory inner)
  led : here.find (root.descend above) = .ok (some (.directory inner))
  walked : here.walk .target (root.descend above) = .ok (.entry location (.directory inner))
  entered : ∀ directory, directory ≠ [] → directory <+: above →
    Entered here patterns root (.directory top) directory

variable (named : here.tree.WellNamed) (found : here.find root = .ok (some (.directory top)))

include named found

/-- Names that lead somewhere from the scanned directory are legal. -/
theorem legal_of_get? {names : List CodeText} {held : Entry}
    (stands : (Entry.directory top).get? names = some held) : ∀ name ∈ names, FileName.Legal name := by
  obtain ⟨location, _, reached⟩ := Directory.exists_location_of_find found
  have lower : here.tree.get? (location ++ names) = some held := by
    rw [FileTree.get?, Entry.get?_append]
    rw [FileTree.get?] at reached
    rw [reached, Option.bind_some, stands]
  intro name member
  exact named _ _ lower name (List.mem_append_right location member)

/-- A scan passes through named directories only. -/
theorem ComesTo.ne_nil {above : List CodeText} {location : Location}
    {inner : List (CodeText × Entry)}
    (come : ComesTo here patterns root top above location inner) : ∀ name ∈ above, name ≠ [] :=
  fun name member => (legal_of_get? named found come.stands name member).ne_nil

/-- The scan goes on from a directory into a directory that stands there. -/
theorem ComesTo.enter {above : List CodeText} {location : Location}
    {inner : List (CodeText × Entry)}
    (come : ComesTo here patterns root top above location inner) {name : CodeText}
    (entered : Entered here patterns root (.directory top) (above ++ [name])) :
    ∃ held, inner.lookup name = some (.directory held) ∧
      ComesTo here patterns root top (above ++ [name]) (location ++ [name]) held := by
  obtain ⟨held, child⟩ := entered.stands
  have inside : inner.lookup name = some (.directory held) :=
    (Entry.get?_concat come.stands name).symm.trans child
  have led := entered.led
  rw [child] at led
  obtain ⟨_, _, reached⟩ := Directory.find_eq_some_iff.mp led
  refine ⟨held, inside, child, led, ?_, ?_⟩
  · have legal := legal_of_get? named found child name (by simp)
    rw [Path.descend_concat] at reached ⊢
    exact Directory.walk_entry come.walked legal inside (by simp)
      (Directory.walk_eq_ok_iff.mp reached).1
  · intro directory some within
    rcases List.prefix_concat_iff.mp within with rfl | above
    · exact entered
    · exact come.entered directory some above

/-- A directory that no rule takes out is entered, or its path is too long. -/
theorem ComesTo.entered_or_lost {above : List CodeText} {location : Location}
    {inner : List (CodeText × Entry)}
    (come : ComesTo here patterns root top above location inner) {name : CodeText}
    (member : name ∈ enteredNames patterns (relative above) (.directory inner)) :
    Entered here patterns root (.directory top) (above ++ [name]) ∨
      ∃ failure, here.find (root.descend (above ++ [name])) = .error failure := by
  obtain ⟨⟨held, inside⟩, notPassed, kept⟩ := mem_enteredNames_iff.mp member
  have child : (Entry.directory top).get? (above ++ [name]) = some (.directory held) :=
    (Entry.get?_concat come.stands name).trans inside
  have legal := legal_of_get? named found child name (by simp)
  rw [below_relative (come.ne_nil named found)] at kept
  rw [Path.descend_concat]
  rcases Directory.find_entry come.led legal inside (by simp) with led | lost
  · refine .inl ⟨⟨held, child⟩, by simpa using notPassed, kept, ?_⟩
    rw [Path.descend_concat, led, child]
  · exact .inr ⟨_, lost⟩

/-- A directory that may be entered is among those entered from the one above it. -/
theorem ComesTo.mem_enteredNames {above : List CodeText} {location : Location}
    {inner : List (CodeText × Entry)}
    (come : ComesTo here patterns root top above location inner) {name : CodeText}
    (entered : Entered here patterns root (.directory top) (above ++ [name])) :
    name ∈ enteredNames patterns (relative above) (.directory inner) := by
  obtain ⟨held, inside, _⟩ := come.enter named found entered
  rw [mem_enteredNames_iff, below_relative (come.ne_nil named found)]
  exact ⟨⟨held, inside⟩, entered.named name (by simp), entered.kept⟩

/-- The files of a directory that the scan tests. -/
theorem ComesTo.tested_iff {above : List CodeText} {location : Location}
    {inner : List (CodeText × Entry)}
    (come : ComesTo here patterns root top above location inner) {name : CodeText} :
    Tested here patterns root (.directory top) (above ++ [name]) ↔
      name ∈ candidateNames here patterns (root.descend above) (relative above)
        (.directory inner) := by
  rw [mem_candidateNames_iff, below_relative (come.ne_nil named found), ← Path.descend_concat,
    ← Entry.entries_directory inner, ← Entry.get?_concat come.stands name]
  constructor
  · intro tested
    exact ⟨tested.stands, tested.named name (by simp), tested.kept⟩
  · rintro ⟨stands, listed, kept⟩
    refine ⟨⟨?_, by simpa using listed, kept⟩, stands⟩
    intro directory some within proper
    rcases List.prefix_concat_iff.mp within with equal | above
    · exact absurd equal proper
    · exact come.entered directory some above

/-- The candidates below a directory that the scan has come to are what the scan tests
there. Each level of the scan goes on by one name, so there are no more levels than the
tree is high. -/
theorem mem_candidates_iff {levels : Nat} {above : List CodeText} {location : Location}
    {inner : List (CodeText × Entry)}
    (come : ComesTo here patterns root top above location inner)
    (enough : here.tree.height < levels + location.length) {file : SourceFile} :
    file ∈ candidates here patterns levels (root.descend above) (relative above) ↔
      ∃ rest, rest ≠ [] ∧ Tested here patterns root (.directory top) (above ++ rest) ∧
        file = sourceFile root (above ++ rest) := by
  induction levels generalizing above location inner with
  | zero =>
      have bounded := FileTree.length_le_height
        (FileTree.get?_of_walkFrom (Directory.walk_eq_ok_iff.mp come.walked).2)
      omega
  | succ levels inductionHypothesis =>
      have onward {name : CodeText}
          (entered : Entered here patterns root (.directory top) (above ++ [name])) :=
        let ⟨_, _, come⟩ := come.enter named found entered
        inductionHypothesis come (by rw [List.length_append, List.length_singleton]; omega)
      simp only [candidates, shown_of_find come.led, List.mem_append, List.mem_map, List.mem_flatMap,
        below_relative (come.ne_nil named found), ← Path.descend_concat, ← come.tested_iff named found]
      constructor
      · rintro (⟨name, tested, rfl⟩ | ⟨name, member, listed⟩)
        · exact ⟨[name], by simp, tested, rfl⟩
        · rcases come.entered_or_lost named found member with entered | ⟨failure, lost⟩
          · obtain ⟨rest, _, tested, rfl⟩ := (onward entered).mp listed
            refine ⟨name :: rest, by simp, ?_, ?_⟩
            · simpa using tested
            · simp
          · rw [candidates_of_lost lost] at listed
            cases listed
      · rintro ⟨rest, some, tested, rfl⟩
        cases rest with
        | nil => exact absurd rfl some
        | cons name rest =>
            cases rest with
            | nil => exact .inl ⟨name, tested, rfl⟩
            | cons next rest =>
                have entered : Entered here patterns root (.directory top) (above ++ [name]) :=
                  tested.above (above ++ [name]) (by simp) (by simp) (by simp)
                refine .inr ⟨name, come.mem_enteredNames named found entered, ?_⟩
                refine (onward entered).mpr ⟨next :: rest, by simp, ?_, ?_⟩
                · simpa using tested
                · simp

/-- The names of a file that the scan tests can be read off its path. -/
theorem names_of_tested {names : List CodeText}
    (tested : Tested here patterns root (.directory top) names) :
    SourceScan.names (sourceFile root names) = names := by
  obtain ⟨held, stands, notDirectory⟩ := tested.stands
  have legal := legal_of_get? named found stands
  refine Text.split_join ?_ fun name member => (legal name member).noSlash
  rintro rfl
  -- No names lead back to the scanned directory, which is no file.
  obtain rfl := Option.some.inj stands
  cases notDirectory

/-- What lies in a subdirectory has the name of the subdirectory and at least one more. -/
theorem ComesTo.names_below {levels : Nat} {above : List CodeText} {location : Location}
    {inner : List (CodeText × Entry)}
    (come : ComesTo here patterns root top above location inner) {name : CodeText}
    (enough : here.tree.height < levels + (location ++ [name]).length)
    (member : name ∈ enteredNames patterns (relative above) (.directory inner)) {file : SourceFile}
    (listed : file ∈ candidates here patterns levels (root.descend (above ++ [name]))
      (relative (above ++ [name]))) :
    ∃ rest, rest ≠ [] ∧ SourceScan.names file = above ++ name :: rest := by
  rcases come.entered_or_lost named found member with entered | ⟨failure, lost⟩
  · obtain ⟨_, _, next⟩ := come.enter named found entered
    obtain ⟨rest, some, tested, rfl⟩ := (mem_candidates_iff named found next enough).mp listed
    refine ⟨rest, some, ?_⟩
    rw [names_of_tested named found tested, List.append_assoc, List.singleton_append]
  · rw [candidates_of_lost lost] at listed
    cases listed

/-- The candidates below a directory come in canonical order. -/
theorem pairwise_candidates {levels : Nat} {above : List CodeText} {location : Location}
    {inner : List (CodeText × Entry)}
    (come : ComesTo here patterns root top above location inner)
    (enough : here.tree.height < levels + location.length) :
    (candidates here patterns levels (root.descend above) (relative above)).Pairwise
      fun first second => Precedes (SourceScan.names first) (SourceScan.names second) := by
  induction levels generalizing above location inner with
  | zero => exact .nil
  | succ levels inductionHypothesis =>
      have sorted : (CodeText.sort (Entry.directory inner).names).Pairwise Before :=
        CodeText.pairwise_sort (Entry.nodup_names _)
      have deeper (name : CodeText) :
          here.tree.height < levels + (location ++ [name]).length := by
        rw [List.length_append, List.length_singleton]
        omega
      have own {name : CodeText} (member : name ∈ candidateNames here patterns (root.descend above)
          (relative above) (.directory inner)) :
          SourceScan.names (sourceFile root (above ++ [name])) = above ++ [name] :=
        names_of_tested named found ((come.tested_iff named found).mpr member)
      simp only [candidates, shown_of_find come.led, below_relative (come.ne_nil named found),
        ← Path.descend_concat]
      rw [List.pairwise_append, List.pairwise_map, List.pairwise_flatMap]
      refine ⟨?_, ⟨?_, ?_⟩, ?_⟩
      · refine (sorted.filter _).imp_of_mem fun {first second} left right before => ?_
        rw [← sourceFile, ← sourceFile, own left, own right]
        exact .append above (.files before)
      · intro name member
        rcases come.entered_or_lost named found member with entered | ⟨failure, lost⟩
        · obtain ⟨_, _, next⟩ := come.enter named found entered
          exact inductionHypothesis next (deeper name)
        · rw [candidates_of_lost lost]
          exact .nil
      · refine (sorted.filter _).imp_of_mem fun {first second} left right before => ?_
        intro one listed other listed'
        obtain ⟨rest, some, equal⟩ := come.names_below named found (deeper first) left listed
        obtain ⟨rest', some', equal'⟩ := come.names_below named found (deeper second) right listed'
        rw [equal, equal']
        exact .append above (.directories before some some')
      · intro one listed other listed'
        obtain ⟨name, member, rfl⟩ := List.mem_map.mp listed
        obtain ⟨directory, entered, listed'⟩ := List.mem_flatMap.mp listed'
        obtain ⟨rest, some, equal⟩ := come.names_below named found (deeper directory) entered listed'
        rw [← sourceFile, own member, equal]
        exact .append above (.fileFirst some)

omit named in
/-- The scan starts in its directory. -/
theorem exists_comesTo_root : ∃ location, ComesTo here patterns root top [] location top := by
  obtain ⟨_, location, walked⟩ := Directory.find_eq_some_iff.mp found
  refine ⟨location, rfl, ?_, ?_, ?_⟩
  · rw [Path.descend_nil, found]
  · rw [Path.descend_nil, walked]
  · intro directory some within
    exact absurd (List.prefix_nil.mp within) some

omit named in
/-- The scan comes to the directory of every file that no rule takes out. -/
theorem Unpruned.exists_comesTo {above : List CodeText} {name : CodeText}
    (unpruned : Unpruned here patterns root (.directory top) (above ++ [name])) :
    ∃ location inner, ComesTo here patterns root top above location inner := by
  have entered : ∀ directory, directory ≠ [] → directory <+: above →
      Entered here patterns root (.directory top) directory := by
    intro directory some within
    refine unpruned.above directory some (within.trans (List.prefix_append above [name])) ?_
    rintro rfl
    have shorter := within.length_le
    rw [List.length_append, List.length_singleton] at shorter
    omega
  cases empty : above with
  | nil =>
      obtain ⟨location, come⟩ := exists_comesTo_root found
      exact ⟨location, top, come⟩
  | cons first rest =>
      rw [← empty]
      have last := entered above (by simp [empty]) (List.prefix_refl above)
      obtain ⟨inner, stands⟩ := last.stands
      have led := last.led
      rw [stands] at led
      obtain ⟨_, location, walked⟩ := Directory.find_eq_some_iff.mp led
      exact ⟨location, inner, stands, led, walked, entered⟩

/-- Of what the scan tests, it keeps the regular files and the links to such. -/
theorem tested_and_isFile_iff {names : List CodeText}
    (answered : Tested here patterns root (.directory top) names →
      ∃ answer, here.isFile (root.descend names) = .ok answer) :
    Tested here patterns root (.directory top) names ∧ here.isFile (root.descend names) = .ok true ↔
      Listed here patterns root (.directory top) names := by
  constructor
  · rintro ⟨tested, isFile⟩
    obtain ⟨held, stands, notDirectory⟩ := tested.stands
    refine ⟨tested.toUnpruned, held, stands, ?_⟩
    cases held with
    | file content => exact .file content
    | link target => exact .link isFile
    | directory inner => cases notDirectory
  · rintro ⟨unpruned, held, stands, regular⟩
    cases regular with
    | file content =>
        have tested : Tested here patterns root (.directory top) names :=
          ⟨unpruned, .file content, stands, rfl⟩
        refine ⟨tested, ?_⟩
        obtain ⟨answer, isFile⟩ := answered tested
        rcases List.eq_nil_or_concat names with rfl | ⟨above, name, rfl⟩
        · cases stands
        · rw [List.concat_eq_append] at unpruned stands isFile ⊢
          obtain ⟨location, inner, come⟩ := unpruned.exists_comesTo found
          have inside : inner.lookup name = some (.file content) :=
            (Entry.get?_concat come.stands name).symm.trans stands
          have legal := legal_of_get? named found stands name (by simp)
          rw [Path.descend_concat] at isFile ⊢
          rcases Directory.find_entry come.led legal inside (by simp) with led | lost
          · rw [Directory.isFile, led]
            rfl
          · rw [Directory.isFile, lost] at isFile
            cases isFile
    | link leads =>
        obtain ⟨content, led⟩ := Directory.find_of_isFile leads
        refine ⟨⟨unpruned, _, stands, ?_⟩, leads⟩
        simp only [leadsToDirectory, Directory.isDirectory, led]
        rfl

omit named in
/-- A scan tests its candidates one after another. -/
theorem scan_eq_filterM {homes : Homes} {source : Path} (resolved : homes.resolve here source = .ok root) :
    scan homes here patterns source =
      (candidates here patterns (here.tree.height + 1) root []).filterM fun file =>
        (here.isFile file.absolute).mapError .files := by
  have directory : (here.find root).mapError Failure.files = .ok (some (.directory top)) :=
    mapError_eq_ok_iff.mpr found
  unfold scan
  rw [resolved]
  change ((here.find root).mapError Failure.files >>= _) = _
  rw [directory]
  rfl

omit found in
omit named in
/-- A scan that succeeds has come to a directory. -/
theorem exists_root_of_scan {homes : Homes} {source : Path} {listed : List SourceFile}
    (scanned : scan homes here patterns source = .ok listed) :
    ∃ root top, homes.resolve here source = .ok root ∧ here.find root = .ok (some (.directory top)) := by
  obtain ⟨root, resolved, rest⟩ := bind_eq_ok_iff.mp scanned
  obtain ⟨held, found, rest⟩ := bind_eq_ok_iff.mp rest
  refine ⟨root, ?_⟩
  split at rest
  · cases rest
  next top => exact ⟨top, mapError_eq_ok_iff.mp resolved, mapError_eq_ok_iff.mp found⟩
  · cases rest

/-- The scan's candidates are what it tests, in canonical order. -/
theorem candidates_root :
    (∀ file, file ∈ candidates here patterns (here.tree.height + 1) root [] ↔
      ∃ names, Tested here patterns root (.directory top) names ∧ file = sourceFile root names) ∧
    (candidates here patterns (here.tree.height + 1) root []).Pairwise
      fun first second => Precedes (SourceScan.names first) (SourceScan.names second) := by
  obtain ⟨location, come⟩ := @exists_comesTo_root here patterns root top found
  have enough : here.tree.height < here.tree.height + 1 + location.length := by omega
  have start : candidates here patterns (here.tree.height + 1) root [] =
      candidates here patterns (here.tree.height + 1) (root.descend []) (relative []) := by
    rw [Path.descend_nil]
    rfl
  rw [start]
  refine ⟨fun file => ?_, pairwise_candidates named found come enough⟩
  rw [mem_candidates_iff named found come enough]
  constructor
  · rintro ⟨names, _, tested, rfl⟩
    exact ⟨names, tested, rfl⟩
  · rintro ⟨names, tested, rfl⟩
    refine ⟨names, ?_, tested, rfl⟩
    rintro rfl
    obtain ⟨held, stands, notDirectory⟩ := tested.stands
    obtain rfl := Option.some.inj stands
    cases notDirectory

/-- A scan succeeds when every test has an answer. -/
theorem scan_eq_ok_iff {homes : Homes} {source : Path} (resolved : homes.resolve here source = .ok root) :
    (∃ listed, scan homes here patterns source = .ok listed) ↔
      ∀ names, Tested here patterns root (.directory top) names →
        ∃ answer, here.isFile (root.descend names) = .ok answer := by
  rw [scan_eq_filterM found resolved]
  constructor
  · rintro ⟨listed, done⟩ names tested
    have candidate := ((candidates_root named found).1 _).mpr ⟨names, tested, rfl⟩
    obtain ⟨answer, answered⟩ := exists_ok_of_filterM done _ candidate
    exact ⟨answer, mapError_eq_ok_iff.mp answered⟩
  · intro answered
    have kept (file : SourceFile)
        (candidate : file ∈ candidates here patterns (here.tree.height + 1) root []) :
        (here.isFile file.absolute).mapError Failure.files = .ok (passes here file) := by
      obtain ⟨names, tested, rfl⟩ := ((candidates_root named found).1 file).mp candidate
      obtain ⟨answer, isFile⟩ := answered names tested
      rw [mapError_eq_ok_iff, passes_sourceFile isFile]
      exact isFile
    exact ⟨_, filterM_of_ok kept⟩

omit named in
/-- A scan that succeeds lists the candidates that are files, in their order. -/
theorem eq_filter_of_scan {homes : Homes} {source : Path} (resolved : homes.resolve here source = .ok root)
    {listed : List SourceFile} (scanned : scan homes here patterns source = .ok listed) :
    listed = (candidates here patterns (here.tree.height + 1) root []).filter (passes here) := by
  rw [scan_eq_filterM found resolved] at scanned
  have kept (file : SourceFile)
      (candidate : file ∈ candidates here patterns (here.tree.height + 1) root []) :
      (here.isFile file.absolute).mapError Failure.files = .ok (passes here file) := by
    obtain ⟨answer, answered⟩ := exists_ok_of_filterM scanned file candidate
    have isFile := mapError_eq_ok_iff.mp answered
    rw [passes_of_isFile isFile, answered]
  exact Except.ok.inj (scanned.symm.trans (filterM_of_ok kept))

/-- The files of a scan are the listed ones, in canonical order. -/
theorem mem_scan_iff {homes : Homes} {source : Path} (resolved : homes.resolve here source = .ok root)
    {listed : List SourceFile} (scanned : scan homes here patterns source = .ok listed)
    {file : SourceFile} :
    file ∈ listed ↔ ∃ names, Listed here patterns root (.directory top) names ∧
      file = sourceFile root names := by
  have answered := (scan_eq_ok_iff named found resolved).mp ⟨listed, scanned⟩
  rw [eq_filter_of_scan found resolved scanned, List.mem_filter, (candidates_root named found).1]
  constructor
  · rintro ⟨⟨names, tested, rfl⟩, passed⟩
    obtain ⟨answer, isFile⟩ := answered names tested
    obtain rfl : answer = true := (passes_sourceFile isFile).symm.trans passed
    exact ⟨names, (tested_and_isFile_iff named found (answered names)).mp ⟨tested, isFile⟩, rfl⟩
  · rintro ⟨names, included, rfl⟩
    obtain ⟨tested, isFile⟩ := (tested_and_isFile_iff named found (answered names)).mpr included
    exact ⟨⟨names, tested, rfl⟩, passes_sourceFile isFile⟩

/-- A scan lists its files in order. -/
theorem pairwise_scan {homes : Homes} {source : Path} (resolved : homes.resolve here source = .ok root)
    {listed : List SourceFile} (scanned : scan homes here patterns source = .ok listed) :
    listed.Pairwise fun first second => Precedes (SourceScan.names first) (SourceScan.names second) := by
  rw [eq_filter_of_scan found resolved scanned]
  exact (candidates_root named found).2.filter _

/-- No path is listed twice. -/
theorem nodup_scan {homes : Homes} {source : Path} (resolved : homes.resolve here source = .ok root)
    {listed : List SourceFile} (scanned : scan homes here patterns source = .ok listed) :
    (listed.map SourceFile.path).Nodup := by
  refine List.pairwise_map.mpr ((pairwise_scan named found resolved scanned).imp ?_)
  intro first second precedes equal
  rw [SourceScan.names, equal] at precedes
  exact Precedes.irrefl precedes

end

section

variable {here there : Directory} (reordered : here.Reordered there)

include reordered

/-- Reordered trees show entries with the same faces. -/
theorem shown_reordered (path : Path) (name : CodeText) :
    ((shown there path).entries.lookup name).map Entry.face =
      ((shown here path).entries.lookup name).map Entry.face := by
  by_cases found : ∃ held, here.find path = .ok (some held)
  · obtain ⟨held, found⟩ := found
    obtain ⟨held', found', _, inside⟩ := reordered.find_some found
    rw [shown_of_find found, shown_of_find found']
    exact inside name
  · rw [shown, shown, reordered.find_eq_of_not_some (not_exists.mp found)]

/-- A directory shows the same names, and so in the same order once they are sorted. -/
theorem sort_names_shown_eq (path : Path) :
    CodeText.sort (shown there path).names = CodeText.sort (shown here path).names := by
  have members (name : CodeText) :
      name ∈ (shown there path).names ↔ name ∈ (shown here path).names := by
    rw [Entry.mem_names_iff, Entry.mem_names_iff, ← Option.isSome_iff_exists,
      ← Option.isSome_iff_exists, ← Option.isSome_map (f := Entry.face),
      shown_reordered reordered, Option.isSome_map]
  have order : (shown there path).names.Perm (shown here path).names :=
    (List.perm_ext_iff_of_nodup (Entry.nodup_names _) (Entry.nodup_names _)).mpr members
  exact CodeText.sort_eq_of_perm order

/-- The same entries lead to directories in reordered trees. -/
theorem leadsToDirectory_eq {path : Path} {held held' : Entry} (same : held'.face = held.face) :
    leadsToDirectory there path held' = leadsToDirectory here path held := by
  cases held with
  | file content => rw [Entry.face_eq_file_iff.mp same, leadsToDirectory, leadsToDirectory]
  | directory inner =>
      obtain ⟨inner', rfl⟩ := Entry.face_eq_directory_iff.mp same
      rfl
  | link target =>
      rw [Entry.face_eq_link_iff.mp same, leadsToDirectory, leadsToDirectory,
        reordered.isDirectory_eq]

/-- The candidates do not depend on the order of listings. -/
theorem candidates_reordered (patterns : List CodeText) (levels : Nat) (absolute : Path)
    (directory : CodeText) :
    candidates there patterns levels absolute directory =
      candidates here patterns levels absolute directory := by
  induction levels generalizing absolute directory with
  | zero => rfl
  | succ levels inductionHypothesis =>
      have files : candidateNames there patterns absolute directory (shown there absolute) =
          candidateNames here patterns absolute directory (shown here absolute) := by
        unfold candidateNames
        rw [sort_names_shown_eq reordered]
        refine List.filter_congr fun name _ => ?_
        rw [Entry.get?_singleton, Entry.get?_singleton,
          Entry.any_eq_of_face (shown_reordered reordered absolute name)
            fun held held' same => leadsToDirectory_eq reordered same]
      have directories : enteredNames patterns directory (shown there absolute) =
          enteredNames patterns directory (shown here absolute) := by
        unfold enteredNames
        rw [sort_names_shown_eq reordered]
        refine List.filter_congr fun name _ => ?_
        rw [Entry.get?_singleton, Entry.get?_singleton,
          Entry.any_eq_of_face (shown_reordered reordered absolute name)
            fun held held' same => Entry.isDirectory_eq_of_face same]
      simp only [candidates, files, directories, inductionHypothesis]

/-- A scan comes to the same in whatever order directories are listed. -/
theorem scan_reordered (homes : Homes) (patterns : List CodeText) (source : Path) :
    scan homes there patterns source = scan homes here patterns source := by
  have resolve : homes.resolve there source = homes.resolve here source :=
    bind_congr fun path => reordered.resolve_eq path
  unfold scan
  rw [resolve]
  refine bind_congr fun root => ?_
  simp only [candidates_reordered reordered, reordered.isFile_eq, ← reordered.height_eq]
  by_cases found : ∃ held, here.find root = .ok (some held)
  · obtain ⟨held, found⟩ := found
    obtain ⟨held', found', same, _⟩ := reordered.find_some found
    rw [found, found']
    cases held with
    | file content => rw [Entry.face_eq_file_iff.mp same]
    | directory inner =>
        obtain ⟨inner', rfl⟩ := Entry.face_eq_directory_iff.mp same
        rfl
    | link target => rw [Entry.face_eq_link_iff.mp same]
  · rw [reordered.find_eq_of_not_some (not_exists.mp found)]

end

/-- A scan lists exactly the regular files that no rule takes out, each once and in
canonical order, whatever the order in which directories are listed. It fails only where
it cannot be told whether a path leads to a regular file. -/
theorem scan_canonical (homes : Homes) {here : Directory} (named : here.tree.WellNamed)
    (patterns : List CodeText) (source : Path) :
    (∀ there, here.Reordered there →
      scan homes there patterns source = scan homes here patterns source) ∧
    ∀ root top, homes.resolve here source = .ok root →
      here.find root = .ok (some (.directory top)) →
      ((∃ listed, scan homes here patterns source = .ok listed) ↔
        ∀ names, Tested here patterns root (.directory top) names →
          ∃ answer, here.isFile (root.descend names) = .ok answer) ∧
      ∀ listed, scan homes here patterns source = .ok listed →
        (∀ file, file ∈ listed ↔ ∃ names, Listed here patterns root (.directory top) names ∧
          file = sourceFile root names) ∧
        (listed.map SourceFile.path).Nodup ∧
        listed.Pairwise fun first second => Precedes (names first) (names second) := by
  refine ⟨fun there reordered => scan_reordered reordered homes patterns source, ?_⟩
  intro root top resolved found
  refine ⟨scan_eq_ok_iff named found resolved, fun listed scanned => ⟨?_, ?_, ?_⟩⟩
  · exact fun file => mem_scan_iff named found resolved scanned
  · exact nodup_scan named found resolved scanned
  · exact pairwise_scan named found resolved scanned

/-- Headers beside a link to one of them, a link to a directory, a directory that is
passed over and a file that a pattern takes in. -/
def linkedHeaders : List (CodeText × Entry) :=
  [(codes "b", .file []),
    (codes "d", .directory [(codes "x", .file []), (codes "c", .file [])]),
    (codes ".git", .directory [(codes "c", .file [])]),
    (codes "a", .link ['b']),
    (codes "e", .link ['d'])]

/-- A directory with links, listed from either end, with an excluded file. -/
theorem scan_canonical_linkedHeaders :
    let here : Directory := ⟨⟨[(codes "s", .directory linkedHeaders)]⟩, []⟩
    let there : Directory := ⟨⟨[(codes "s", .directory linkedHeaders.reverse)]⟩, []⟩
    let source : Path := ⟨.relative, [codes "s"]⟩
    let root : Path := ⟨.root, [codes "s"]⟩
    let listed := [sourceFile root [codes "a"], sourceFile root [codes "b"],
      sourceFile root [codes "d", codes "c"]]
    scan {} here [codes "d/x"] source = .ok listed ∧
    scan {} there [codes "d/x"] source = .ok listed ∧
    (∀ file, file ∈ listed ↔
      ∃ names, Listed here [codes "d/x"] root (.directory linkedHeaders) names ∧
        file = sourceFile root names) ∧
    listed.Pairwise fun first second => Precedes (names first) (names second) := by
  intro here there source root listed
  have named : here.tree.WellNamed := FileTree.wellNamed_of_all (by decide +kernel)
  have reordered : here.Reordered there :=
    ⟨rfl, @Entry.Reordered.inside [] [] (codes "s") _ _
      (.permuted (by decide) (List.reverse_perm linkedHeaders).symm)⟩
  have resolved : Homes.resolve {} here source = .ok root := by decide +kernel
  have found : here.find root = .ok (some (.directory linkedHeaders)) := by with_unfolding_all rfl
  have scanned : scan {} here [codes "d/x"] source = .ok listed := by decide +kernel
  obtain ⟨same, canonical⟩ := scan_canonical {} named [codes "d/x"] source
  obtain ⟨members, _, ordered⟩ := (canonical root linkedHeaders resolved found).2 listed scanned
  exact ⟨scanned, (same there reordered).trans scanned, members, ordered⟩

end SourceScan

end HeaderBook
