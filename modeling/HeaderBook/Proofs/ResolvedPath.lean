import HeaderBook.Proofs.PathNames

/-!
# Paths that are read back

A path that is read from a text is `Tidy`: none of its names is empty or a full stop, and no
name holds a slash. A tidy path is read back from the text it is written as. Whatever is done
to a path keeps it tidy, and so does resolving it, which may go through many links: the names
of a link's target are cut at its slashes. A resolved path starts at the root directory.

A path that starts at a home directory is read from the text of that directory, and the names
after it stay as they are.
-/

namespace HeaderBook

namespace Text

variable {α : Type} [DecidableEq α]

/-- No part of a text that is cut at the separators holds one. -/
theorem not_mem_of_mem_split {separator : α} {text part : List α} (among : part ∈ split separator text) :
    separator ∉ part := by
  induction text generalizing part with
  | nil =>
      obtain rfl := List.mem_singleton.mp among
      exact List.not_mem_nil
  | cons item text inductionHypothesis =>
      rw [split] at among
      split at among
      · rcases List.mem_cons.mp among with rfl | later
        · exact List.not_mem_nil
        · exact inductionHypothesis later
      next apart =>
        split at among
        next none =>
          obtain rfl := List.mem_singleton.mp among
          exact fun inside => apart (List.mem_singleton.mp inside).symm
        next first rest cut =>
          rw [cut] at inductionHypothesis
          rcases List.mem_cons.mp among with rfl | later
          · rw [List.mem_cons, not_or]
            exact ⟨Ne.symm apart, inductionHypothesis List.mem_cons_self⟩
          · exact inductionHypothesis (List.mem_cons_of_mem first later)

end Text

namespace Path

/-- The names along a path are such as reading a text gives. -/
def Tidy (path : Path) : Prop :=
  ∀ name ∈ path.names, name ≠ [] ∧ name ≠ here ∧ slash ∉ name

variable {path : Path}

/-! ### Reading and writing -/

theorem tidy_nil (anchor : Anchor) : Tidy ⟨anchor, []⟩ :=
  fun _ member => absurd member List.not_mem_nil

/-- Every path that is read from a text is tidy. -/
theorem tidy_ofText (text : CodeText) : (ofText text).Tidy := by
  intro name member
  obtain ⟨among, proper⟩ := List.mem_filter.mp member
  obtain ⟨nonempty, notHere⟩ := of_decide_eq_true proper
  exact ⟨nonempty, notHere, Text.not_mem_of_mem_split among⟩

/-- The joined names of a tidy path do not begin with a slash. -/
theorem head?_join_ne (tidy : path.Tidy) : (Text.join [slash] path.names).head? ≠ some slash := by
  obtain ⟨anchor, names⟩ := path
  cases names with
  | nil => exact fun equal => by cases equal
  | cons first rest =>
      obtain ⟨nonempty, _, noSlash⟩ := tidy first List.mem_cons_self
      obtain ⟨code, first, rfl⟩ := List.exists_cons_of_ne_nil nonempty
      have starts : (Text.join [slash] ((code :: first) :: rest)).head? = some code := by
        cases rest with
        | nil => rw [Text.join, List.intercalate_singleton, List.head?_cons]
        | cons second rest =>
            rw [Text.join, List.intercalate_cons_cons, List.append_assoc, List.cons_append,
              List.head?_cons]
      rw [starts]
      intro same
      obtain rfl := Option.some.inj same
      exact noSlash List.mem_cons_self

/-- The anchor of a tidy path is read off the slashes before its names. -/
theorem anchorOf_append_join (tidy : path.Tidy) :
    anchorOf (path.anchor.text ++ Text.join [slash] path.names) = path.anchor := by
  have none : (Text.join [slash] path.names).takeWhile (· = slash) = [] := by
    cases written : Text.join [slash] path.names with
    | nil => rfl
    | cons code rest =>
        have apart := head?_join_ne tidy
        rw [written, List.head?_cons] at apart
        exact List.takeWhile_cons_of_neg (by simpa using apart)
  have slashes : ∀ code ∈ path.anchor.text, decide (code = slash) = true := by
    cases path.anchor with
    | relative => decide
    | root => decide
    | doubleRoot => decide
  rw [anchorOf, List.takeWhile_append_of_pos slashes, none, List.append_nil]
  cases path.anchor with
  | relative => rfl
  | root => rfl
  | doubleRoot => rfl

/-- The slashes of an anchor add no names. -/
theorem namesOf_append (anchor : Anchor) (text : CodeText) :
    namesOf (anchor.text ++ text) = namesOf text := by
  have slashed (text : CodeText) : namesOf (slash :: text) = namesOf text := by
    rw [namesOf, Text.split, if_pos rfl, List.filter_cons_of_neg (by simp)]
    rfl
  cases anchor with
  | relative => rfl
  | root => exact slashed text
  | doubleRoot => exact (slashed _).trans (slashed text)

/-- The names of a tidy path are read back from their join. -/
theorem namesOf_join (tidy : path.Tidy) : namesOf (Text.join [slash] path.names) = path.names := by
  by_cases none : path.names = []
  · rw [none]
    decide
  · rw [namesOf, Text.split_join none fun name member => (tidy name member).2.2, List.filter_eq_self]
    intro name member
    obtain ⟨nonempty, notHere, _⟩ := tidy name member
    exact decide_eq_true ⟨nonempty, notHere⟩

/-- A tidy path is read back from its text. -/
theorem ofText_text (tidy : path.Tidy) : ofText path.text = path := by
  have read : ofText (path.anchor.text ++ Text.join [slash] path.names) = path := by
    rw [ofText, anchorOf_append_join tidy, namesOf_append, namesOf_join tidy]
  unfold text
  split
  next empty =>
    -- The full stop that is written for the empty text has no name either.
    rw [empty] at read
    rw [← read]
    decide
  · exact read

/-- The text of a path with an anchor leads to that path from anywhere. -/
theorem child_text (tidy : path.Tidy) (anchored : path.anchor ≠ .relative) (base : Path) :
    base.child path.text = path := by
  rw [child, ofText_text tidy, if_neg anchored]

/-- No path is written as the empty text. -/
theorem text_ne_nil (path : Path) : path.text ≠ [] := by
  unfold text
  split
  · decide
  next nonempty => exact nonempty

/-! ### Going on -/

/-- A text without an anchor leads on from a path, and any other starts anew. -/
theorem child_cases (path : Path) (text : CodeText) :
    path.child text = path.descend (ofText text).names ∨
      path.child text = ofText text ∧ (ofText text).anchor ≠ .relative := by
  by_cases relative : (ofText text).anchor = .relative
  · exact .inl (if_pos relative)
  · exact .inr ⟨if_neg relative, relative⟩

/-- A path below a tidy one is tidy. -/
theorem Tidy.child (tidy : path.Tidy) (text : CodeText) : (path.child text).Tidy := by
  rcases child_cases path text with leads | ⟨starts, _⟩
  · rw [leads]
    exact List.forall_mem_append.mpr ⟨tidy, tidy_ofText text⟩
  · rw [starts]
    exact tidy_ofText text

/-- A path below an anchored one is anchored. -/
theorem anchor_child_ne (anchored : path.anchor ≠ .relative) (text : CodeText) :
    (path.child text).anchor ≠ .relative := by
  rcases child_cases path text with leads | ⟨starts, anchor⟩
  · rw [leads]
    exact anchored
  · rw [starts]
    exact anchor

/-- A proper name keeps a path tidy. -/
theorem Tidy.entry (tidy : path.Tidy) {name : CodeText}
    (proper : name ≠ [] ∧ name ≠ here ∧ slash ∉ name) : (path.entry name).Tidy :=
  List.forall_mem_append.mpr ⟨tidy, List.forall_mem_singleton.mpr proper⟩

/-- Going up keeps a path tidy. -/
theorem Tidy.up (tidy : path.Tidy) : (Directory.up path).Tidy := by
  unfold Directory.up
  split
  · exact tidy.entry (by decide)
  · exact fun name member => tidy name (List.dropLast_subset _ member)

end Path

namespace Directory

open HeaderBook.Path (Tidy slash)

variable {here : Directory} {path resolved : Path} {links : Nat} {steps : List Step}
  {known : KnownLinks}

/-- A path stays tidy when what is left of it is taken as written. -/
theorem tidy_giveUp (tidy : path.Tidy) (names : List CodeText) (steps : List Step) :
    (giveUp path names steps).Tidy := by
  fun_induction giveUp path names steps with
  | case1 path names => exact tidy.child _
  | case2 path names given rest inductionHypothesis => exact inductionHypothesis tidy
  | case3 path names link rest inductionHypothesis => exact inductionHypothesis (tidy.child _)

/-- What holds while a path is resolved: the path so far is tidy, as are the places of the
links that were followed, and no name that is left to do holds a slash. -/
structure Resolving (known : KnownLinks) (path : Path) (steps : List Step) : Prop where
  path : path.Tidy
  places : ∀ link place, (link, some place) ∈ known → place.Tidy
  names : ∀ name, .name name ∈ steps → slash ∉ name

namespace Resolving

/-- The first step is done, and it has led to another tidy path. -/
theorem moved {step : Step} {next : Path} (resolving : Resolving known path (step :: steps))
    (tidy : next.Tidy) : Resolving known next steps :=
  ⟨tidy, resolving.places, fun name member => resolving.names name (List.mem_cons_of_mem step member)⟩

/-- A proper name that is left to do keeps the path tidy. -/
theorem entry {name : CodeText} (resolving : Resolving known path (.name name :: steps))
    (proper : ¬ (name = [] ∨ name = Path.here)) : (path.entry name).Tidy := by
  rw [not_or] at proper
  exact resolving.path.entry ⟨proper.1, proper.2, resolving.names name List.mem_cons_self⟩

/-- The place to which a followed link has led is tidy. -/
theorem followed {link : Path} (resolving : Resolving known path (.followed link :: steps)) :
    Resolving ((link, some path) :: known) path steps := by
  refine ⟨resolving.path, fun other place member => ?_, (resolving.moved resolving.path).names⟩
  rcases List.mem_cons.mp member with equal | before
  · obtain ⟨_, same⟩ := Prod.mk.inj equal
    rw [Option.some.inj same]
    exact resolving.path
  · exact resolving.places other place before

/-- The names of a link's target are to be taken before the other steps. -/
theorem link {name : CodeText} {target : Text} {fromRoot : Bool} {further : List CodeText}
    (resolving : Resolving known path (.name name :: steps)) (link : Path)
    (cut : FileTree.targetNames target = (fromRoot, further)) :
    Resolving ((link, none) :: known) (if fromRoot then ⟨.root, []⟩ else path)
      (further.map .name ++ .followed link :: steps) := by
  refine ⟨?_, fun other place member => ?_, fun other member => ?_⟩
  · split
    · exact Path.tidy_nil .root
    · exact resolving.path
  · rcases List.mem_cons.mp member with equal | before
    · cases (Prod.mk.inj equal).2
    · exact resolving.places other place before
  · rcases List.mem_append.mp member with inside | after
    · obtain ⟨part, among, equal⟩ := List.mem_map.mp inside
      rw [← Step.name.inj equal]
      rw [← (Prod.mk.inj cut).2] at among
      exact Text.not_mem_of_mem_split among
    · rcases List.mem_cons.mp after with equal | later
      · cases equal
      · exact resolving.names other (List.mem_cons_of_mem _ later)

end Resolving

/-- Taking steps ends at a tidy path, if following a link does. -/
theorem tidy_resolveAlong
    {follow : Option (KnownLinks → Path → List Step → Except FileTree.Failure Path)}
    (followed : ∀ go ∈ follow, ∀ known path steps, Resolving known path steps →
      go known path steps = .ok resolved → resolved.Tidy)
    (resolving : Resolving known path steps)
    (reached : here.resolveAlong follow known path steps = .ok resolved) : resolved.Tidy := by
  fun_induction resolveAlong here follow known path steps with
  | case1 known path =>
      rw [← Except.ok.inj reached]
      exact resolving.path
  | case2 known path link rest inductionHypothesis =>
      exact inductionHypothesis resolving.followed reached
  | case3 known path name rest _ inductionHypothesis =>
      exact inductionHypothesis (resolving.moved resolving.path) reached
  | case4 known path rest _ inductionHypothesis =>
      exact inductionHypothesis (resolving.moved resolving.path.up) reached
  | case5 => cases reached
  | case6 known path name rest proper _ next _ _ _ _ place held inductionHypothesis =>
      -- A link that was followed before leads where it led then.
      obtain ⟨before, after, split, _⟩ := List.lookup_eq_some_iff.mp held
      have tidy : place.Tidy := resolving.places next place (by simp [split])
      exact inductionHypothesis (resolving.moved tidy) reached
  | case7 known path name rest proper =>
      rw [← Except.ok.inj reached]
      exact tidy_giveUp (resolving.entry proper) [] rest
  | case8 known path name rest proper =>
      rw [← Except.ok.inj reached]
      exact tidy_giveUp (resolving.entry proper) [] rest
  | case9 known path name rest proper _ next _ _ _ _ _ go given fromRoot further cut =>
      exact followed go given _ _ _ (resolving.link next cut) reached
  | case10 known path name rest proper _ next _ _ inductionHypothesis =>
      exact inductionHypothesis (resolving.moved (resolving.entry proper)) reached

/-- Resolving ends at a tidy path. -/
theorem tidy_resolveFrom (resolving : Resolving known path steps)
    (reached : here.resolveFrom links known path steps = .ok resolved) : resolved.Tidy := by
  induction links generalizing known path steps with
  | zero => exact tidy_resolveAlong (fun go none => by cases none) resolving reached
  | succ links inductionHypothesis =>
      refine tidy_resolveAlong (fun go some known path steps resolving further => ?_) resolving reached
      obtain rfl := Option.some.inj some
      exact inductionHypothesis resolving further

/-- Going on by names without slashes keeps a location tidy. -/
theorem tidy_goOn {anchor : Anchor} {start : Location} (tidy : Tidy ⟨anchor, start⟩)
    {names : List CodeText} (noSlash : ∀ name ∈ names, slash ∉ name) :
    Tidy ⟨anchor, goOn start names⟩ := by
  induction names generalizing start with
  | nil => exact tidy
  | cons name names inductionHypothesis =>
      rw [List.forall_mem_cons] at noSlash
      rw [goOn, List.foldl_cons]
      refine inductionHypothesis ?_ noSlash.2
      split
      · exact tidy
      next proper =>
        rw [not_or] at proper
        split
        · exact fun other member => tidy other (List.dropLast_subset _ member)
        · exact tidy.entry ⟨proper.1, proper.2, noSlash.1⟩

/-- A tidy path is tidy when it is made absolute. -/
theorem tidy_absolute (current : Tidy ⟨.root, here.current⟩) (tidy : path.Tidy) :
    (here.absolute path).Tidy := by
  have noSlash : ∀ name ∈ path.names, slash ∉ name := fun name member => (tidy name member).2.2
  unfold Directory.absolute
  split
  · exact tidy_goOn current noSlash
  · exact tidy_goOn (Path.tidy_nil path.anchor) noSlash

/-- An absolute path is anchored. -/
theorem anchor_absolute_ne (here : Directory) (path : Path) :
    (here.absolute path).anchor ≠ .relative := by
  unfold Directory.absolute
  split
  · exact fun equal => by cases equal
  next anchored => exact anchored

/-- What a tidy path is resolved to starts at the root directory and is tidy, if the current
directory lies at such a path. -/
theorem tidy_resolve (current : Tidy ⟨.root, here.current⟩) (tidy : path.Tidy)
    (found : here.resolve path = .ok resolved) : resolved.Tidy ∧ resolved.anchor ≠ .relative := by
  obtain ⟨reached, walked, rest⟩ := bind_eq_ok_iff.mp found
  have resolving : Resolving [] ⟨if path.anchor = .relative then .relative else .root, []⟩
      (path.names.map .name) := by
    refine ⟨Path.tidy_nil _, fun link place member => absurd member List.not_mem_nil, ?_⟩
    intro name member
    obtain ⟨other, among, equal⟩ := List.mem_map.mp member
    rw [← Step.name.inj equal]
    exact (tidy other among).2.2
  have tidyReached := tidy_resolveFrom resolving walked
  dsimp only at rest
  split at rest
  · cases rest
  · cases rest
  · rw [← Except.ok.inj rest]
    exact ⟨tidy_absolute current tidyReached, anchor_absolute_ne here reached⟩

end Directory

namespace Homes

variable {homes : Homes} {path expanded : Path}

/-- Home directories lie at tidy paths. -/
theorem tidy_of_path? {home : Text} (known : path? home = some path) : path.Tidy := by
  unfold path? at known
  split at known
  · obtain rfl := Option.some.inj known
    exact Path.tidy_nil .root
  · cases known
  · obtain rfl := Option.some.inj known
    exact Path.tidy_ofText _

/-- Writing out the home directory keeps a path tidy. -/
theorem tidy_expand (tidy : path.Tidy) (written : homes.expand path = .ok expanded) :
    expanded.Tidy := by
  unfold expand at written
  split at written
  next user names _ listed =>
    obtain ⟨found, _, written⟩ := bind_eq_ok_iff.mp written
    split at written
    next home known =>
      obtain ⟨text, _, known⟩ := Option.bind_eq_some_iff.mp known
      obtain rfl := Except.ok.inj written
      intro name member
      rcases List.mem_append.mp member with inside | after
      · exact tidy_of_path? known name inside
      · exact tidy name (by rw [listed]; exact List.mem_cons_of_mem _ after)
    · cases written
  · obtain rfl := Except.ok.inj written
    exact tidy

/-- What a tidy path is resolved to from its home directory on is tidy and starts at the root
directory. -/
theorem tidy_resolve {here : Directory} {resolved : Path} (current : Path.Tidy ⟨.root, here.current⟩)
    (tidy : path.Tidy) (found : homes.resolve here path = .ok resolved) :
    resolved.Tidy ∧ resolved.anchor ≠ .relative := by
  obtain ⟨expanded, written, reached⟩ := bind_eq_ok_iff.mp found
  exact Directory.tidy_resolve current (tidy_expand tidy written) reached

end Homes

end HeaderBook
