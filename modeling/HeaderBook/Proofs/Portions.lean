import HeaderBook.FragmentTable

/-!
# Portions of a text

A pass that captures fragments divides a text into the fragments and the gaps
between them. Such a division is a list of portions here: a fragment is one
portion and so is each character of a gap. The division alone determines what the
pass leaves and what it captures, so a pass is described by saying which division
it makes.

`Everywhere` states a condition on every portion together with what stands before
and behind it, and is taken apart from the left.
-/

namespace HeaderBook

/-- A portion of a divided text. -/
inductive Portion where
  /-- A character of a gap, which stays where it is. -/
  | kept (c : Char)
  /-- A fragment that is captured. -/
  | lifted (fragment : Text)
  deriving DecidableEq, Repr

namespace Portion

/-- The characters of a portion. -/
def text : Portion → Text
  | .kept c => [c]
  | .lifted fragment => fragment

/-- The fragment that a portion is. -/
def fragment? : Portion → Option Text
  | .kept _ => none
  | .lifted fragment => some fragment

/-- The text that is divided. -/
def whole (portions : List Portion) : Text :=
  portions.flatMap text

/-- The fragments of a division, left to right. -/
def fragments (portions : List Portion) : List Text :=
  portions.filterMap fragment?

/-- A division with a marker in the place of every fragment. The markers have
successive indices from `index` on. -/
def marked (kind : MarkerKind) (index : Nat) : List Portion → Text
  | [] => []
  | .kept c :: rest => c :: marked kind index rest
  | .lifted _ :: rest => kind.format index ++ marked kind (index + 1) rest

@[simp] theorem whole_nil : whole [] = [] :=
  rfl

@[simp] theorem whole_kept (c : Char) (rest : List Portion) :
    whole (.kept c :: rest) = c :: whole rest :=
  rfl

@[simp] theorem whole_lifted (fragment : Text) (rest : List Portion) :
    whole (.lifted fragment :: rest) = fragment ++ whole rest :=
  rfl

@[simp] theorem whole_append (front rest : List Portion) :
    whole (front ++ rest) = whole front ++ whole rest :=
  List.flatMap_append

/-- A gap is its own text. -/
@[simp] theorem whole_map_kept (gap : Text) : whole (gap.map .kept) = gap := by
  rw [whole, List.flatMap_map]
  exact List.flatMap_singleton' gap

theorem fragments_append (front rest : List Portion) :
    fragments (front ++ rest) = fragments front ++ fragments rest :=
  List.filterMap_append

/-- Nothing is lifted out of a gap. -/
theorem fragments_map_kept (gap : Text) : fragments (gap.map .kept) = [] := by
  simp [fragments, fragment?]

/-- A gap is left as it is. -/
theorem marked_map_kept_append (kind : MarkerKind) (index : Nat) (gap : Text)
    (rest : List Portion) : marked kind index (gap.map .kept ++ rest) = gap ++ marked kind index rest := by
  induction gap with
  | nil => rfl
  | cons c gap inductionHypothesis =>
      rw [List.map_cons, List.cons_append, marked, inductionHypothesis]
      rfl

/-- `Everywhere fits portions` says that every portion fits between the portions
before it and those behind it. -/
def Everywhere (fits : List Portion → Portion → List Portion → Prop)
    (portions : List Portion) : Prop :=
  ∀ left portion right, portions = left ++ portion :: right → fits left portion right

section Everywhere

variable {fits other : List Portion → Portion → List Portion → Prop}

theorem everywhere_nil : Everywhere fits [] := by
  intro left portion right equal
  simp at equal

/-- The first portion has nothing before it, and the others have it. -/
theorem everywhere_cons {portion : Portion} {rest : List Portion} :
    Everywhere fits (portion :: rest) ↔
      fits [] portion rest ∧ Everywhere (fun left => fits (portion :: left)) rest := by
  constructor
  · intro everywhere
    refine ⟨everywhere [] portion rest rfl, fun left next right equal => ?_⟩
    exact everywhere (portion :: left) next right (by rw [equal]; rfl)
  · rintro ⟨first, later⟩ left next right equal
    cases left with
    | nil =>
        obtain ⟨rfl, rfl⟩ := List.cons.inj equal
        exact first
    | cons head left =>
        obtain ⟨rfl, tail⟩ := List.cons.inj equal
        exact later left next right tail

/-- A division in two parts: each has the other part beside it. -/
theorem everywhere_append {front rest : List Portion} :
    Everywhere fits (front ++ rest) ↔
      Everywhere (fun left portion right => fits left portion (right ++ rest)) front ∧
        Everywhere (fun left => fits (front ++ left)) rest := by
  induction front generalizing fits with
  | nil => simp [everywhere_nil]
  | cons portion front inductionHypothesis =>
      rw [List.cons_append, everywhere_cons, inductionHypothesis, everywhere_cons, and_assoc]
      rfl

/-- Only the places of the division itself count. -/
theorem everywhere_congr {portions : List Portion}
    (same : ∀ left portion right, portions = left ++ portion :: right →
      (fits left portion right ↔ other left portion right)) :
    Everywhere fits portions ↔ Everywhere other portions :=
  forall₄_congr same

end Everywhere

end Portion
end HeaderBook
