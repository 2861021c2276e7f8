import HeaderBook.Proofs.Restoration

/-!
# Nested expansion in bounded depth

Restoring expands the fragment behind a marker and puts the result in its place,
so expansions are nested, and `expandWithin` bounds their nesting.

A literal or a run is expanded under limits that let the ampersand through and
nothing else, and these limits stay the same one level further down. That the
nesting ends there is due to the table: the fragment of the ampersand holds no
marker. Below a block the block limit falls. So three levels beyond the number of
blocks are enough, `expandWithin_eq_restore`, and no entry is missing.
-/

namespace HeaderBook

namespace Document

open Text Source

/-- Restores the fragment behind a marker of a kind. -/
def restoreNested (document : Document) (index : Nat) : MarkerKind → Text → Except NumberTooLong Text
  | .generic => restoreAmpersands
  | .docComment => restoreAmpersands
  | .block => document.restoreBelow index

section

variable {document : Document} {found : Marker} {index limit : Nat} {fragment : Text}

/-! ### What becomes of a marker -/

/-- A table has as many fragments as its limit says when all blocks count. -/
theorem size_table (kind : MarkerKind) :
    (document.table kind).fragments.length = document.limits document.blocks.length kind := by
  cases kind <;> rfl

/-- An index within the limits is that of an entry. -/
theorem exists_entry {kind : MarkerKind} (bounded : limit ≤ document.blocks.length)
    (within : index < document.limits limit kind) :
    ∃ fragment, (document.table kind).fragments[index]? = some fragment := by
  have inside : index < (document.table kind).fragments.length := by
    rw [size_table]
    cases kind with
    | generic => exact within
    | docComment => exact within
    | block => exact Nat.lt_of_lt_of_le within bounded
  exact ⟨_, List.getElem?_eq_getElem inside⟩

/-- A marker beyond its limit is left as it is. -/
theorem expandSegment_of_le {limits : MarkerKind → Nat}
    {nested : (MarkerKind → Nat) → Text → Except ExpansionFailure Text}
    (read : readNumber found.digits = .ok index) (beyond : limits found.kind ≤ index) :
    document.expandSegment limits nested (.marker found) = .ok found.text := by
  rw [expandSegment, read]
  exact if_pos beyond

/-- A marker within its limit is replaced by its fragment, expanded under the limits for that
fragment. -/
theorem expandSegment_of_lt {limits : MarkerKind → Nat}
    {nested : (MarkerKind → Nat) → Text → Except ExpansionFailure Text}
    (read : readNumber found.digits = .ok index) (within : index < limits found.kind)
    (entry : (document.table found.kind).fragments[index]? = some fragment) :
    document.expandSegment limits nested (.marker found) =
      nested (document.nestedLimits index found.kind) fragment := by
  have got : (document.table found.kind).get (index : Int) = .ok fragment := by
    unfold FragmentTable.get
    simp only [entry]
  rw [expandSegment, read]
  exact (if_neg (Nat.not_le_of_lt within)).trans (by rw [got]; rfl)

/-- A marker whose number is too long fails the expansion. -/
theorem expandSegment_of_error {limits : MarkerKind → Nat}
    {nested : (MarkerKind → Nat) → Text → Except ExpansionFailure Text} {failure : NumberTooLong}
    (unread : readNumber found.digits = .error failure) :
    document.expandSegment limits nested (.marker found) = .error (.number failure) := by
  rw [expandSegment, unread]
  rfl

/-- A marker whose number is too long fails the restoring as well. -/
theorem restoreSegment_of_error {failure : NumberTooLong}
    (unread : readNumber found.digits = .error failure) :
    document.restoreSegment limit (.marker found) = .error failure := by
  rw [restoreSegment, unread]
  rfl

/-- Restoring leaves a marker beyond its limit as it is. -/
theorem restoreSegment_of_le (read : readNumber found.digits = .ok index)
    (beyond : document.limits limit found.kind ≤ index) :
    document.restoreSegment limit (.marker found) = .ok found.text := by
  rw [restoreSegment, read]
  obtain ⟨kind, digits⟩ := found
  cases kind with
  | generic =>
      have missing : document.generic[index]? = none := List.getElem?_eq_none beyond
      simp [bind, Except.bind, missing]
  | docComment =>
      have missing : document.docComments[index]? = none := List.getElem?_eq_none beyond
      simp [bind, Except.bind, missing]
  | block => exact if_neg (Nat.not_lt_of_le beyond)

/-- Restoring replaces a marker within its limit by its restored fragment. -/
theorem restoreSegment_of_lt (read : readNumber found.digits = .ok index)
    (within : index < document.limits limit found.kind)
    (entry : (document.table found.kind).fragments[index]? = some fragment) :
    document.restoreSegment limit (.marker found) =
      document.restoreNested index found.kind fragment := by
  rw [restoreSegment, read]
  obtain ⟨kind, digits⟩ := found
  cases kind with
  | generic =>
      have entry : document.generic[index]? = some fragment := entry
      simp [bind, Except.bind, entry, restoreNested]
  | docComment =>
      have entry : document.docComments[index]? = some fragment := entry
      simp [bind, Except.bind, entry, restoreNested]
  | block =>
      have entry : document.blocks[index]? = some fragment := entry
      have within : index < limit := within
      simp [bind, Except.bind, entry, within, restoreNested]

end

/-! ### Expansion and restoration -/

/-- Restoring ampersands is done segment by segment. -/
theorem restoreAmpersands_eq (text : Text) :
    restoreAmpersands text =
      ((Segment.ofText text).mapM restoreAmpersand).map List.flatten := by
  unfold restoreAmpersands
  cases (Segment.ofText text).mapM restoreAmpersand with
  | error failure => rfl
  | ok parts => rfl

/-- An expansion is a restoration when their segments agree. -/
theorem map_flatten_mapM {segments : List Segment} {f : Segment → Except NumberTooLong Text}
    {g : Segment → Except ExpansionFailure Text}
    (each : ∀ segment ∈ segments, g segment = (f segment).mapError .number) :
    (segments.mapM g).map List.flatten =
      ((segments.mapM f).map List.flatten).mapError .number := by
  rw [mapM_mapError each]
  cases segments.mapM f with
  | error failure => rfl
  | ok parts => rfl

section

variable (document : Document)

/-- Two levels are enough for a fragment that holds no other fragment. -/
theorem expandWithin_ampersandLimits (depth : Nat) (text : Text) :
    document.expandWithin (depth + 2) ampersandLimits text =
      (restoreAmpersands text).mapError .number := by
  rw [expandWithin, restoreAmpersands_eq]
  refine map_flatten_mapM fun segment _ => ?_
  cases segment with
  | plain c => rfl
  | marker found =>
      cases read : readNumber found.digits with
      | error failure =>
          rw [expandSegment_of_error read, restoreAmpersand, read]
          rfl
      | ok index =>
          by_cases within : index < ampersandLimits found.kind
          · -- The one entry within the limits is the ampersand, which holds no marker.
            obtain ⟨kind, digits⟩ := found
            cases kind with
            | docComment => exact absurd within (Nat.not_lt_zero index)
            | block => exact absurd within (Nat.not_lt_zero index)
            | generic =>
                obtain rfl : index = 0 := Nat.lt_one_iff.mp within
                have alone : document.expandWithin (depth + 1) ampersandLimits ['&'] = .ok ['&'] := by
                  rw [expandWithin, ofText_ampersand]
                  rfl
                rw [expandSegment_of_lt read within rfl, restoreAmpersand, read]
                exact alone
          · have kept : ¬ (found.kind = .generic ∧ index = 0) := by
              rintro ⟨generic, rfl⟩
              exact within (by rw [generic]; exact Nat.zero_lt_one)
            rw [expandSegment_of_le read (Nat.le_of_not_lt within), restoreAmpersand, read]
            exact congrArg Except.ok (if_neg kept).symm

/-- Three levels beyond the limit are enough, since the limit falls from block to
block. -/
theorem expandWithin_limits {limit depth : Nat} (bounded : limit ≤ document.blocks.length)
    (enough : limit + 2 ≤ depth) (text : Text) :
    document.expandWithin (depth + 1) (document.limits limit) text =
      (document.restoreBelow limit text).mapError .number := by
  induction limit using Nat.strongRecOn generalizing depth text with
  | _ limit inductionHypothesis =>
      obtain ⟨deeper, rfl⟩ : ∃ deeper, depth = deeper + 2 := ⟨depth - 2, by omega⟩
      rw [expandWithin, restoreBelow_eq]
      refine map_flatten_mapM fun segment _ => ?_
      cases segment with
      | plain c => rfl
      | marker found =>
          cases read : readNumber found.digits with
          | error failure =>
              rw [expandSegment_of_error read, restoreSegment_of_error read]
              rfl
          | ok index =>
              by_cases within : index < document.limits limit found.kind
              · obtain ⟨fragment, entry⟩ := exists_entry bounded within
                rw [expandSegment_of_lt read within entry, restoreSegment_of_lt read within entry]
                obtain ⟨kind, digits⟩ := found
                cases kind with
                | generic => exact document.expandWithin_ampersandLimits deeper fragment
                | docComment => exact document.expandWithin_ampersandLimits deeper fragment
                | block =>
                    have below : index < limit := within
                    exact inductionHypothesis index below (by omega) (by omega) fragment
              · have beyond := Nat.le_of_not_lt within
                rw [expandSegment_of_le read beyond, restoreSegment_of_le read beyond]
                rfl

/-- Restoring a text nests at most three expansions more than there are blocks, and
finds every entry it looks up. -/
theorem expandWithin_eq_restore (text : Text) :
    document.expandWithin (document.blocks.length + 3) (document.limits document.blocks.length)
        text = (document.restore text).mapError .number :=
  document.expandWithin_limits (Nat.le_refl _) (Nat.le_refl _) text

end

/-- An ampersand in a literal in a block needs all the levels. -/
example :
    let document : Document :=
      { path := [], text := "&BLOCK0;".toList, literals := ["\"&0.\"".toList]
        docComments := [], blocks := ["\x7b&1.\x7d".toList], declarations := [] }
    document.expandWithin (document.blocks.length + 2) (document.limits document.blocks.length)
      document.text = .error .tooDeep := by
  decide +kernel

end Document
end HeaderBook
