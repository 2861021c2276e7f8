import HeaderBook.SourceScan
import HeaderBook.Workspace
import HeaderBook.Proofs.Outcome

/-!
# How operations on files fail

The file system objects to a path with a fault, which names the path. Before that, a
path may be refused because of its characters, and resolving it may end in a loop of
links. For each operation the lemmas here say which of these it can end in: looking
for an entry fails with a fault alone, an operation that hands its path over is
refused exactly as the path is, and only resolving finds a loop.

A scan gives files that were found, so none of their paths is refused when they are
read.
-/

namespace HeaderBook

namespace FileTree

/-- The failures of the file system that are not objections to a path. No call has an
explanation for them. -/
inductive Failure.Unexplained : Failure → Prop where
  | linkLoop (path : Path) : Unexplained (.linkLoop path)
  | nullCharacter : Unexplained .nullCharacter
  | homeUnknown : Unexplained .homeUnknown

/-- A refused path holds surrogates or the null character. -/
theorem refusal?_cases {path : Path} {failure : Failure} (refused : refusal? path = some failure) :
    (∃ surrogates, failure = .surrogates surrogates) ∨ failure = .nullCharacter := by
  unfold refusal? at refused
  split at refused
  next surrogates _ => exact .inl ⟨surrogates, (Option.some.inj refused).symm⟩
  · split at refused
    · exact .inr (Option.some.inj refused).symm
    · cases refused

/-- Of the refusals of a path, that of the null character alone is unexplained. -/
theorem eq_nullCharacter_of_refusal? {path : Path} {failure : Failure}
    (refused : refusal? path = some failure) (unexplained : failure.Unexplained) :
    failure = .nullCharacter := by
  rcases refusal?_cases refused with ⟨surrogates, rfl⟩ | rfl
  · cases unexplained
  · rfl

end FileTree

namespace Directory

open FileTree (Failure Fault refusal?)

variable {here : Directory} {path : Path} {failure : Failure}

/-- Looking for an entry fails on names that are too long, and on nothing else. -/
theorem find_error (failed : here.find path = .error failure) :
    failure = .fault .nameTooLong path := by
  unfold find at failed
  split at failed
  · cases failed
  · cases failed
  · exact (Except.error.inj failed).symm
  · cases failed

/-- An entry is found by a path that is not refused. -/
theorem refusal?_of_find {entry : Entry} (found : here.find path = .ok (some entry)) :
    refusal? path = none := by
  unfold find at found
  split at found
  · cases found
  next free _ => exact free
  · cases found
  · cases found

/-- Asking for a file fails only where a name or the path is too long. -/
theorem isFile_error (failed : here.isFile path = .error failure) :
    failure = .fault .nameTooLong path := by
  rcases bind_eq_error_iff.mp failed with lost | ⟨held, _, equal⟩
  · exact find_error lost
  · split at equal <;> cases equal

/-- Where there is a file, it is found. -/
theorem find_of_isFile (isFile : here.isFile path = .ok true) :
    ∃ content, here.find path = .ok (some (.file content)) := by
  obtain ⟨held, found, equal⟩ := bind_eq_ok_iff.mp isFile
  split at equal
  next content => exact ⟨content, found⟩
  · cases equal

/-- Asking for a directory fails only where a name or the path is too long. -/
theorem isDirectory_error (failed : here.isDirectory path = .error failure) :
    failure = .fault .nameTooLong path := by
  rcases bind_eq_error_iff.mp failed with lost | ⟨held, _, equal⟩
  · exact find_error lost
  · cases equal

/-- Reading fails as the path is refused, or with a fault. -/
theorem read_error (failed : here.read path = .error failure) :
    refusal? path = some failure ∨ ∃ fault, failure = .fault fault path := by
  unfold read at failed
  split at failed
  next refused =>
    rw [← Except.error.inj failed]
    exact .inl refused
  · cases failed
  all_goals exact .inr ⟨_, (Except.error.inj failed).symm⟩

/-- What can be read is found. -/
theorem find_of_read {content : Bytes} (read : here.read path = .ok content) :
    here.find path = .ok (some (.file content)) := by
  unfold Directory.read at read
  split at read
  · cases read
  next refused walked =>
    rw [find, refused, walked, ← Except.ok.inj read]
  all_goals cases read

/-- Opening a file fails as the path is refused, or with a fault. -/
theorem openFile_error {keep : Bytes → Bytes} (failed : here.openFile keep path = .error failure) :
    refusal? path = some failure ∨ ∃ fault, failure = .fault fault path := by
  unfold openFile at failed
  split at failed
  next refused =>
    rw [← Except.error.inj failed]
    exact .inl refused
  · cases failed
  · exact .inr ⟨_, (Except.error.inj failed).symm⟩
  · exact .inr ⟨_, (Except.error.inj failed).symm⟩
  · cases failed
  · exact .inr ⟨_, (Except.error.inj failed).symm⟩

/-- A refused path is opened for nothing. -/
theorem openFile_of_refusal? (keep : Bytes → Bytes) (refused : refusal? path = some failure) :
    here.openFile keep path = .error failure := by
  rw [openFile, refused]

/-- A fault that is not excused becomes a fault at the same path. -/
theorem excuse_error {fault : Fault} (failed : here.excuse fault path = .error failure) :
    ∃ objection, failure = .fault objection path := by
  rcases bind_eq_error_iff.mp failed with lost | ⟨answer, _, equal⟩
  · exact ⟨_, isDirectory_error lost⟩
  · cases answer with
    | true => cases equal
    | false => exact ⟨fault, (Except.error.inj equal).symm⟩

/-- Making directories fails with a fault. -/
theorem makeDirectories_error (here : Directory) (path : Path) {failure : Failure}
    (failed : (here.makeDirectories path).1 = .error failure) :
    ∃ fault above, failure = .fault fault above := by
  fun_induction makeDirectories here path with
  | case1 => cases failed
  | case2 => exact ⟨_, _, (Except.error.inj failed).symm⟩
  | case3 _ _ _ _ _ above inductionHypothesis =>
      rw [above] at inductionHypothesis
      exact inductionHypothesis failed
  | case4 => cases failed
  | case5 => exact ⟨_, _, (Except.error.inj failed).symm⟩
  | case6 => exact ⟨_, _, (excuse_error failed).choose_spec⟩
  | case7 => exact ⟨_, _, (excuse_error failed).choose_spec⟩

/-- Making sure of a directory fails as the path is refused, or with a fault. -/
theorem ensureDirectory_error (failed : (here.ensureDirectory path).1 = .error failure) :
    refusal? path = some failure ∨ ∃ fault above, failure = .fault fault above := by
  unfold ensureDirectory at failed
  split at failed
  next refused =>
    rw [← Except.error.inj failed]
    exact .inl refused
  · exact .inr (makeDirectories_error here path failed)

/-- A refused path changes nothing. -/
theorem ensureDirectory_of_refusal? (refused : refusal? path = some failure) :
    here.ensureDirectory path = (.error failure, here) := by
  rw [ensureDirectory, refused]

/-- Taking steps fails as a path on the way is refused, if following a link does. -/
theorem resolveAlong_error
    {follow : Option (KnownLinks → Path → List Step → Except FileTree.Failure Path)}
    (followed : ∀ go ∈ follow, ∀ known path steps, go known path steps = .error failure →
      ∃ way, refusal? way = some failure)
    {known : KnownLinks} {steps : List Step}
    (failed : here.resolveAlong follow known path steps = .error failure) :
    ∃ way, refusal? way = some failure := by
  fun_induction resolveAlong here follow known path steps with
  | case1 => cases failed
  | case2 _ _ _ _ inductionHypothesis => exact inductionHypothesis failed
  | case3 _ _ _ _ _ inductionHypothesis => exact inductionHypothesis failed
  | case4 _ _ _ _ inductionHypothesis => exact inductionHypothesis failed
  | case5 _ _ _ _ _ _ next other refused =>
      rw [← Except.error.inj failed]
      exact ⟨next, refused⟩
  | case6 _ _ _ _ _ _ _ _ _ _ _ _ _ inductionHypothesis => exact inductionHypothesis failed
  | case7 => cases failed
  | case8 => cases failed
  | case9 _ _ _ _ _ _ _ _ _ _ _ _ go given => exact followed go given _ _ _ failed
  | case10 _ _ _ _ _ _ _ _ _ inductionHypothesis => exact inductionHypothesis failed

/-- Following links fails as a path on the way is refused. -/
theorem resolveFrom_error {links : Nat} {known : KnownLinks} {steps : List Step}
    (failed : here.resolveFrom links known path steps = .error failure) :
    ∃ way, refusal? way = some failure := by
  induction links generalizing known path steps with
  | zero => exact resolveAlong_error (fun go none => by cases none) failed
  | succ links inductionHypothesis =>
      refine resolveAlong_error (fun go some known path steps lost => ?_) failed
      obtain rfl := Option.some.inj some
      exact inductionHypothesis lost

/-- Resolving a path fails in a loop of links, or as a path on the way is refused. -/
theorem resolve_error (failed : here.resolve path = .error failure) :
    (∃ loop, failure = .linkLoop loop) ∨ (∃ surrogates, failure = .surrogates surrogates) ∨
      failure = .nullCharacter := by
  rcases bind_eq_error_iff.mp failed with lost | ⟨resolved, _, rest⟩
  · obtain ⟨_, refused⟩ := resolveFrom_error lost
    exact .inr (FileTree.refusal?_cases refused)
  · dsimp only at rest
    split at rest
    next refused =>
      rw [← Except.error.inj rest]
      exact .inr (FileTree.refusal?_cases refused)
    · exact .inl ⟨_, (Except.error.inj rest).symm⟩
    · cases rest

end Directory

namespace SourceScan

open FileTree (refusal?)

variable {homes : Homes} {here : Directory} {patterns : List CodeText} {source : Path}

/-- A scan fails because its directory's path cannot be resolved or leads to no
directory, or because of a path that is too long. -/
theorem scan_error {failure : Failure} (failed : scan homes here patterns source = .error failure) :
    (∃ lost, homes.resolve here source = .error lost ∧ failure = .files lost) ∨
      failure = .missing source ∨ failure = .notDirectory source ∨
      ∃ fault path, failure = .files (.fault fault path) := by
  rcases bind_eq_error_iff.mp failed with unresolved | ⟨root, _, rest⟩
  · obtain ⟨inner, lost, rfl⟩ := mapError_eq_error_iff.mp unresolved
    exact .inl ⟨inner, lost, rfl⟩
  rcases bind_eq_error_iff.mp rest with unfound | ⟨held, _, rest⟩
  · obtain ⟨inner, lost, rfl⟩ := mapError_eq_error_iff.mp unfound
    rw [Directory.find_error lost]
    exact .inr (.inr (.inr ⟨_, _, rfl⟩))
  · split at rest
    · exact .inr (.inl (Except.error.inj rest).symm)
    · obtain ⟨file, _, untested⟩ := filterM_error rest
      obtain ⟨inner, lost, rfl⟩ := mapError_eq_error_iff.mp untested
      rw [Directory.isFile_error lost]
      exact .inr (.inr (.inr ⟨_, _, rfl⟩))
    · exact .inr (.inr (.inl (Except.error.inj rest).symm))

/-- A scan fails where its directory's path cannot be resolved. -/
theorem scan_of_resolve_error {lost : FileTree.Failure}
    (failed : homes.resolve here source = .error lost) :
    scan homes here patterns source = .error (.files lost) :=
  bind_eq_error_iff.mpr (.inl (mapError_eq_error_iff.mpr ⟨lost, failed, rfl⟩))

/-- A scanned file is a file. -/
theorem isFile_of_mem_scan {found : List SourceFile}
    (scanned : scan homes here patterns source = .ok found) {file : SourceFile}
    (member : file ∈ found) : here.isFile file.absolute = .ok true := by
  obtain ⟨root, _, rest⟩ := bind_eq_ok_iff.mp scanned
  obtain ⟨held, _, rest⟩ := bind_eq_ok_iff.mp rest
  split at rest
  · cases rest
  · exact mapError_eq_ok_iff.mp (filterM_ok rest file member)
  · cases rest

/-- The path of a scanned file is not refused. -/
theorem refusal?_of_mem_scan {found : List SourceFile}
    (scanned : scan homes here patterns source = .ok found) {file : SourceFile}
    (member : file ∈ found) : refusal? file.absolute = none := by
  obtain ⟨content, found⟩ := Directory.find_of_isFile (isFile_of_mem_scan scanned member)
  exact Directory.refusal?_of_find found

end SourceScan
end HeaderBook
