import Mathlib.Data.List.TakeWhile
import HeaderBook.Proofs.FileFailure

/-!
# Names along a path

The text of a relative path is its names with slashes between them, and cutting it at
the slashes gives the names back. `FileName.Legal` says what a name must be like so that
a file system can hold it. A path goes on by such names without being refused, and its
location goes on by the very same names.
-/

namespace HeaderBook

namespace Text

variable {α : Type}

/-- What is in a join is in the separator or in a part. -/
theorem mem_join {separator : List α} {parts : List (List α)} {item : α}
    (member : item ∈ join separator parts) : item ∈ separator ∨ ∃ part ∈ parts, item ∈ part := by
  induction parts with
  | nil => cases member
  | cons first rest inductionHypothesis =>
      cases rest with
      | nil =>
          rw [join, List.intercalate_singleton] at member
          exact .inr ⟨first, List.mem_cons_self, member⟩
      | cons second rest =>
          rw [join, List.intercalate_cons_cons, List.append_assoc, List.mem_append,
            List.mem_append] at member
          rcases member with here | between | later
          · exact .inr ⟨first, List.mem_cons_self, here⟩
          · exact .inl between
          · rcases inductionHypothesis later with between | ⟨part, among, inside⟩
            · exact .inl between
            · exact .inr ⟨part, List.mem_cons_of_mem first among, inside⟩

/-- Every part of a join is in it. -/
theorem mem_join_of_mem {separator : List α} {parts : List (List α)} {part : List α} {item : α}
    (among : part ∈ parts) (inside : item ∈ part) : item ∈ join separator parts := by
  induction parts with
  | nil => cases among
  | cons first rest inductionHypothesis =>
      cases rest with
      | nil =>
          obtain rfl := List.mem_singleton.mp among
          rwa [join, List.intercalate_singleton]
      | cons second rest =>
          rw [join, List.intercalate_cons_cons, List.append_assoc]
          rcases List.mem_cons.mp among with rfl | later
          · exact List.mem_append_left _ inside
          · exact List.mem_append_right _ (List.mem_append_right _ (inductionHypothesis later))

/-- One more part at the end. -/
theorem join_concat {separator : List α} {parts : List (List α)} (some : parts ≠ [])
    (last : List α) : join separator (parts ++ [last]) = join separator parts ++ separator ++ last := by
  induction parts with
  | nil => exact absurd rfl some
  | cons first rest inductionHypothesis =>
      cases rest with
      | nil => simp [join]
      | cons second rest =>
          have shorter := inductionHypothesis (List.cons_ne_nil second rest)
          simp only [join, List.cons_append, List.intercalate_cons_cons] at shorter ⊢
          rw [shorter]
          simp

variable [DecidableEq α]

/-- A text without separators is not split. -/
theorem split_of_not_mem {separator : α} {part : List α} (whole : separator ∉ part) :
    split separator part = [part] := by
  induction part with
  | nil => rfl
  | cons item part inductionHypothesis =>
      rw [List.mem_cons, not_or] at whole
      rw [split, if_neg (Ne.symm whole.1), inductionHypothesis whole.2]

/-- The first separator ends the first part. -/
theorem split_append {separator : α} {part : List α} (whole : separator ∉ part) (rest : List α) :
    split separator (part ++ separator :: rest) = part :: split separator rest := by
  induction part with
  | nil => rw [List.nil_append, split, if_pos rfl]
  | cons item part inductionHypothesis =>
      rw [List.mem_cons, not_or] at whole
      rw [List.cons_append, split, if_neg (Ne.symm whole.1), inductionHypothesis whole.2]

/-- Cutting at the separators gives the parts back, if none of them holds a separator. -/
theorem split_join {separator : α} {parts : List (List α)} (some : parts ≠ [])
    (whole : ∀ part ∈ parts, separator ∉ part) : split separator (join [separator] parts) = parts := by
  induction parts with
  | nil => exact absurd rfl some
  | cons first rest inductionHypothesis =>
      rw [List.forall_mem_cons] at whole
      cases rest with
      | nil => rw [join, List.intercalate_singleton, split_of_not_mem whole.1]
      | cons second rest =>
          have later := inductionHypothesis (List.cons_ne_nil second rest) whole.2
          rw [join] at later
          rw [join, List.intercalate_cons_cons, List.append_assoc, List.singleton_append,
            split_append whole.1, later]

end Text

namespace FileName

/-- A name that a file system can hold, in the form in which a listing shows it. -/
structure Legal (name : CodeText) : Prop where
  ne_nil : name ≠ []
  ne_here : name ≠ Path.here
  ne_above : name ≠ Path.above
  noSlash : Path.slash ∉ name
  noNull : CodePoint.char '\x00' ∉ name
  /-- Every surrogate stands for a byte. -/
  bytes : failure? name = none
  /-- No surrogates spell out the bytes of a character. -/
  shown : stored name = name
  fits : size name ≤ FileTree.nameLimit

instance (name : CodeText) : Decidable (Legal name) :=
  decidable_of_iff (name ≠ [] ∧ name ≠ Path.here ∧ name ≠ Path.above ∧ Path.slash ∉ name ∧
      CodePoint.char '\x00' ∉ name ∧ failure? name = none ∧ stored name = name ∧
      size name ≤ FileTree.nameLimit)
    ⟨fun ⟨nonempty, notHere, notAbove, slash, null, bytes, shown, fits⟩ =>
        ⟨nonempty, notHere, notAbove, slash, null, bytes, shown, fits⟩,
      fun legal => ⟨legal.ne_nil, legal.ne_here, legal.ne_above, legal.noSlash, legal.noNull,
        legal.bytes, legal.shown, legal.fits⟩⟩

/-- A text can be handed over when each of its surrogates stands for a byte. -/
theorem failure?_eq_none_iff {text : CodeText} :
    failure? text = none ↔ ∀ code ∈ text, code.isSurrogate = true → (byte? code).isSome = true := by
  have dropped : failure? text = none ↔
      text.dropWhile (fun code => !code.isSurrogate || (byte? code).isSome) = [] := by
    unfold failure?
    split
    next empty => exact ⟨fun _ => empty, fun _ => rfl⟩
    next refused nonempty => exact ⟨fun equal => (by cases equal), fun empty => (nonempty empty).elim⟩
  rw [dropped, List.dropWhile_eq_nil_iff]
  refine forall₂_congr fun code _ => ?_
  cases code.isSurrogate with
  | false => simp
  | true => simp

/-- A character parts the surrogates before it from those after it. -/
theorem storedAfter_append {code : CodePoint} (other : byte? code = none) (run : Bytes)
    (before after : CodeText) :
    storedAfter run (before ++ code :: after) = storedAfter run before ++ code :: stored after := by
  induction before generalizing run with
  | nil => simp only [List.nil_append, storedAfter, other, stored]
  | cons first before inductionHypothesis =>
      rw [List.cons_append, storedAfter, storedAfter]
      cases byte? first with
      | some byte => exact inductionHypothesis (byte :: run)
      | none =>
          simp only [inductionHypothesis]
          rw [List.append_assoc, List.cons_append]

end FileName

namespace Path

@[simp] theorem descend_nil (path : Path) : path.descend [] = path := by
  simp [descend]

/-- The last name of a descent names an entry. -/
theorem descend_concat (path : Path) (names : List CodeText) (name : CodeText) :
    path.descend (names ++ [name]) = (path.descend names).entry name := by
  simp [descend, entry]

/-- The location of an entry is one name longer. -/
theorem location_entry {path : Path} {name : CodeText} (legal : FileName.Legal name) :
    (path.entry name).location = path.location ++ [name] := by
  simp [location, entry, legal.shown]

/-- The code points of a path are those of its names, slashes, and full stops. -/
theorem mem_text {path : Path} {code : CodePoint} (member : code ∈ path.text) :
    code = slash ∨ code = CodePoint.char '.' ∨ ∃ name ∈ path.names, code ∈ name := by
  unfold text at member
  split at member
  · exact .inr (.inl (List.mem_singleton.mp member))
  · rcases List.mem_append.mp member with anchored | named
    · have slashed : path.anchor.text ⊆ [slash] := by
        cases path.anchor with
        | relative => simp [Anchor.text]
        | root => simp [Anchor.text, slash]
        | doubleRoot => simp [Anchor.text, slash]
      exact .inl (List.mem_singleton.mp (slashed anchored))
    · rcases Text.mem_join named with between | inside
      · exact .inl (List.mem_singleton.mp between)
      · exact .inr (.inr inside)

/-- The names of a path are in its text. -/
theorem mem_text_of_mem {path : Path} {name : CodeText} {code : CodePoint}
    (among : name ∈ path.names) (inside : code ∈ name) : code ∈ path.text := by
  have joined : code ∈ path.anchor.text ++ Text.join [slash] path.names :=
    List.mem_append_right _ (Text.mem_join_of_mem among inside)
  unfold text
  split
  next empty =>
    rw [empty] at joined
    cases joined
  · exact joined

end Path

namespace FileTree

/-- A path is not refused when its names hold no null character and each of their
surrogates stands for a byte. -/
theorem refusal?_eq_none_iff {path : Path} :
    refusal? path = none ↔ ∀ name ∈ path.names,
      FileName.failure? name = none ∧ CodePoint.char '\x00' ∉ name := by
  have split : refusal? path = none ↔
      FileName.failure? path.text = none ∧ CodePoint.char '\x00' ∉ path.text := by
    unfold refusal?
    cases FileName.failure? path.text with
    | some failure => simp
    | none => simp
  simp only [split, FileName.failure?_eq_none_iff]
  constructor
  · rintro ⟨bytes, noNull⟩ name among
    exact ⟨fun code inside => bytes code (Path.mem_text_of_mem among inside),
      fun inside => noNull (Path.mem_text_of_mem among inside)⟩
  · intro names
    constructor
    · intro code member surrogate
      rcases Path.mem_text member with rfl | rfl | ⟨name, among, inside⟩
      · cases surrogate
      · cases surrogate
      · exact (names name among).1 code inside surrogate
    · intro member
      rcases Path.mem_text member with equal | equal | ⟨name, among, inside⟩
      · exact absurd equal (by decide)
      · exact absurd equal (by decide)
      · exact (names name among).2 inside

/-- A path goes on by a legal name without being refused. -/
theorem refusal?_entry {path : Path} {name : CodeText} (legal : FileName.Legal name)
    (free : refusal? path = none) : refusal? (path.entry name) = none := by
  rw [refusal?_eq_none_iff] at free ⊢
  intro other among
  rcases List.mem_append.mp among with before | last
  · exact free other before
  · obtain rfl := List.mem_singleton.mp last
    exact ⟨legal.bytes, legal.noNull⟩

end FileTree

end HeaderBook
