/-!
# Outcomes

A computation that may fail ends in a value or in a failure. The lemmas here say
for each way of combining computations when the whole succeeds and how it fails,
so that callers need not take the computations apart.
-/

namespace HeaderBook

variable {ε ε' α β : Type}

/-- A result is a failure exactly when it is no value. -/
theorem exists_error_iff {result : Except ε α} :
    (∃ failure, result = .error failure) ↔ ¬ ∃ value, result = .ok value := by
  cases result with
  | error failure =>
      refine iff_of_true ⟨failure, rfl⟩ ?_
      rintro ⟨_, equal⟩
      cases equal
  | ok value =>
      refine iff_of_false ?_ (not_not_intro ⟨value, rfl⟩)
      rintro ⟨_, equal⟩
      cases equal

/-- Two steps succeed exactly when the first does and then the second. -/
theorem bind_eq_ok_iff {result : Except ε α} {next : α → Except ε β} {value : β} :
    result >>= next = .ok value ↔ ∃ first, result = .ok first ∧ next first = .ok value := by
  cases result with
  | error failure =>
      constructor
      · intro equal
        cases equal
      · rintro ⟨_, equal, _⟩
        cases equal
  | ok first =>
      refine ⟨fun equal => ⟨first, rfl, equal⟩, ?_⟩
      rintro ⟨_, equal, last⟩
      rw [← Except.ok.inj equal] at last
      exact last

/-- Two steps fail by the first, or by the second after the first has succeeded. -/
theorem bind_eq_error_iff {result : Except ε α} {next : α → Except ε β} {failure : ε} :
    result >>= next = .error failure ↔
      result = .error failure ∨ ∃ first, result = .ok first ∧ next first = .error failure := by
  cases result with
  | error other =>
      refine ⟨fun equal => .inl (congrArg _ (Except.error.inj equal)), ?_⟩
      rintro (equal | ⟨_, equal, _⟩)
      · exact congrArg _ (Except.error.inj equal)
      · cases equal
  | ok first =>
      refine ⟨fun equal => .inr ⟨first, rfl, equal⟩, ?_⟩
      rintro (equal | ⟨_, equal, last⟩)
      · cases equal
      · rw [← Except.ok.inj equal] at last
        exact last

/-- Giving a failure another cause keeps the values. -/
theorem mapError_eq_ok_iff {cause : ε → ε'} {result : Except ε α} {value : α} :
    result.mapError cause = .ok value ↔ result = .ok value := by
  cases result with
  | error inner =>
      constructor
      · intro equal
        cases equal
      · intro equal
        cases equal
  | ok other =>
      constructor
      · intro equal
        exact congrArg _ (Except.ok.inj equal)
      · intro equal
        exact congrArg _ (Except.ok.inj equal)

/-- A failure with a cause comes from a failure that has it. -/
theorem mapError_eq_error_iff {cause : ε → ε'} {result : Except ε α} {failure : ε'} :
    result.mapError cause = .error failure ↔ ∃ inner, result = .error inner ∧ cause inner = failure := by
  cases result with
  | error inner =>
      constructor
      · intro equal
        exact ⟨inner, rfl, Except.error.inj equal⟩
      · rintro ⟨_, equal, rfl⟩
        cases equal
        rfl
  | ok value =>
      constructor
      · intro equal
        cases equal
      · rintro ⟨_, equal, _⟩
        cases equal

/-- Changing the value of a result does not change whether there is one. -/
theorem exists_map_eq_ok_iff {result : Except ε α} {f : α → β} :
    (∃ value, result.map f = .ok value) ↔ ∃ value, result = .ok value := by
  cases result with
  | error failure =>
      constructor
      · rintro ⟨_, equal⟩
        cases equal
      · rintro ⟨_, equal⟩
        cases equal
  | ok value => exact ⟨fun _ => ⟨value, rfl⟩, fun _ => ⟨f value, rfl⟩⟩

/-! ### Maps -/

/-- A map in which every element succeeds gives all results. -/
theorem mapM_eq_ok {items : List α} {f : α → Except ε β} {g : α → β}
    (each : ∀ item ∈ items, f item = .ok (g item)) : items.mapM f = .ok (items.map g) := by
  induction items with
  | nil => rfl
  | cons item items inductionHypothesis =>
      have tail := inductionHypothesis fun other member => each other (by simp [member])
      rw [List.mapM_cons, each item (by simp), tail]
      rfl

/-- A map succeeds exactly when it succeeds on every element. -/
theorem exists_mapM_eq_ok_iff {items : List α} {f : α → Except ε β} :
    (∃ results, items.mapM f = .ok results) ↔ ∀ item ∈ items, ∃ result, f item = .ok result := by
  induction items with
  | nil => exact ⟨fun _ _ member => absurd member List.not_mem_nil, fun _ => ⟨[], rfl⟩⟩
  | cons item items inductionHypothesis =>
      rw [List.forall_mem_cons, ← inductionHypothesis, List.mapM_cons]
      constructor
      · rintro ⟨results, succeeded⟩
        obtain ⟨first, here, goesOn⟩ := bind_eq_ok_iff.mp succeeded
        obtain ⟨rest, later, _⟩ := bind_eq_ok_iff.mp goesOn
        exact ⟨⟨first, here⟩, ⟨rest, later⟩⟩
      · rintro ⟨⟨first, here⟩, ⟨rest, later⟩⟩
        exact ⟨first :: rest, by rw [here, later]; rfl⟩

/-- A map fails as it fails on some element. -/
theorem exists_of_mapM_eq_error {items : List α} {f : α → Except ε β} {failure : ε}
    (failed : items.mapM f = .error failure) : ∃ item ∈ items, f item = .error failure := by
  induction items with
  | nil => cases failed
  | cons item items inductionHypothesis =>
      rw [List.mapM_cons] at failed
      rcases bind_eq_error_iff.mp failed with here | ⟨first, _, goesOn⟩
      · exact ⟨item, List.mem_cons_self, here⟩
      · rcases bind_eq_error_iff.mp goesOn with later | ⟨rest, _, equal⟩
        · obtain ⟨found, member, same⟩ := inductionHypothesis later
          exact ⟨found, List.mem_cons_of_mem _ member, same⟩
        · cases equal

/-- A map whose failures are given another cause. -/
theorem mapM_mapError {items : List α} {f : α → Except ε β}
    {g : α → Except ε' β} {cause : ε → ε'}
    (each : ∀ item ∈ items, g item = (f item).mapError cause) :
    items.mapM g = (items.mapM f).mapError cause := by
  induction items with
  | nil => rfl
  | cons item items inductionHypothesis =>
      have tail := inductionHypothesis fun other member => each other (List.mem_cons_of_mem _ member)
      rw [List.mapM_cons, List.mapM_cons, each item List.mem_cons_self, tail]
      cases f item with
      | error failure => rfl
      | ok first =>
          cases items.mapM f with
          | error failure => rfl
          | ok rest => rfl

/-- The parts of a text are computed in order, so the text of two lists is that of the
first followed by that of the second. -/
theorem flatten_mapM_append {left right : List α} {f : α → Except ε (List β)} {result : List β}
    (done : ((left ++ right).mapM f).map List.flatten = .ok result) :
    ∃ front back, (left.mapM f).map List.flatten = .ok front ∧
      (right.mapM f).map List.flatten = .ok back ∧ result = front ++ back := by
  rw [List.mapM_append] at done
  cases first : left.mapM f with
  | error failure =>
      rw [first] at done
      cases done
  | ok front =>
      cases second : right.mapM f with
      | error failure =>
          rw [first, second] at done
          cases done
      | ok back =>
          rw [first, second] at done
          refine ⟨front.flatten, back.flatten, rfl, rfl, ?_⟩
          rw [← List.flatten_append]
          exact (Except.ok.inj done).symm

/-- For one item the lists to flatten are a single one. -/
theorem flatten_mapM_singleton (item : α) (f : α → Except ε (List β)) :
    ([item].mapM f).map List.flatten = f item := by
  rw [List.mapM_cons]
  cases f item with
  | error failure => rfl
  | ok part => exact congrArg Except.ok (List.append_nil part)

/-- Every result of a map is that of some element. -/
theorem exists_of_mem_mapM {items : List α} {f : α → Except ε β} {results : List β} {result : β}
    (done : items.mapM f = .ok results) (member : result ∈ results) :
    ∃ item ∈ items, f item = .ok result := by
  induction items generalizing results with
  | nil =>
      obtain rfl : [] = results := Except.ok.inj done
      cases member
  | cons item items inductionHypothesis =>
      rw [List.mapM_cons] at done
      obtain ⟨first, here, goesOn⟩ := bind_eq_ok_iff.mp done
      obtain ⟨rest, later, equal⟩ := bind_eq_ok_iff.mp goesOn
      obtain rfl : first :: rest = results := Except.ok.inj equal
      rcases List.mem_cons.mp member with rfl | inside
      · exact ⟨item, List.mem_cons_self, here⟩
      · obtain ⟨other, among, same⟩ := inductionHypothesis later inside
        exact ⟨other, List.mem_cons_of_mem item among, same⟩

/-! ### Filters -/

/-- A filter that fails does so on one of the items. -/
theorem filterAuxM_error {holds : α → Except ε Bool} {items kept : List α} {failure : ε}
    (failed : items.filterAuxM holds kept = .error failure) :
    ∃ item ∈ items, holds item = .error failure := by
  induction items generalizing kept with
  | nil => cases failed
  | cons item items inductionHypothesis =>
      rcases bind_eq_error_iff.mp failed with here | ⟨_, _, later⟩
      · exact ⟨item, List.mem_cons_self, here⟩
      · obtain ⟨other, member, fails⟩ := inductionHypothesis later
        exact ⟨other, List.mem_cons_of_mem item member, fails⟩

/-- A filter keeps the items on which the test holds. -/
theorem filterAuxM_ok {holds : α → Except ε Bool} {items kept result : List α}
    (done : items.filterAuxM holds kept = .ok result) :
    ∀ item ∈ result, item ∈ kept ∨ holds item = .ok true := by
  induction items generalizing kept with
  | nil =>
      obtain rfl : kept = result := Except.ok.inj done
      exact fun item member => .inl member
  | cons first items inductionHypothesis =>
      obtain ⟨answer, tested, later⟩ := bind_eq_ok_iff.mp done
      intro item member
      rcases inductionHypothesis later item member with before | passes
      · cases answer with
        | false => exact .inl before
        | true =>
            rcases List.mem_cons.mp before with rfl | before
            · exact .inr tested
            · exact .inl before
      · exact .inr passes

/-- A selection fails only by the test of one of its items. -/
theorem filterM_error {holds : α → Except ε Bool} {items : List α} {failure : ε}
    (failed : items.filterM holds = .error failure) : ∃ item ∈ items, holds item = .error failure := by
  rcases bind_eq_error_iff.mp failed with aux | ⟨_, _, equal⟩
  · exact filterAuxM_error aux
  · cases equal

/-- Every selected item passes the test. -/
theorem filterM_ok {holds : α → Except ε Bool} {items result : List α}
    (done : items.filterM holds = .ok result) : ∀ item ∈ result, holds item = .ok true := by
  obtain ⟨reversed, aux, equal⟩ := bind_eq_ok_iff.mp done
  obtain rfl : reversed.reverse = result := Except.ok.inj equal
  intro item member
  rcases filterAuxM_ok aux item (List.mem_reverse.mp member) with nothing | passes
  · exact absurd nothing List.not_mem_nil
  · exact passes

/-- A test that always answers selects as a test without failures does. -/
theorem filterAuxM_of_ok {holds : α → Except ε Bool} {test : α → Bool} {items : List α}
    (answered : ∀ item ∈ items, holds item = .ok (test item)) (kept : List α) :
    items.filterAuxM holds kept = .ok ((items.filter test).reverse ++ kept) := by
  induction items generalizing kept with
  | nil => rfl
  | cons first items inductionHypothesis =>
      rw [List.forall_mem_cons] at answered
      refine bind_eq_ok_iff.mpr ⟨test first, answered.1, ?_⟩
      rw [inductionHypothesis answered.2]
      cases passes : test first with
      | true => simp [passes]
      | false => simp [passes]

/-- A filter whose test always answers keeps what the test holds on, in order. -/
theorem filterM_of_ok {holds : α → Except ε Bool} {test : α → Bool} {items : List α}
    (answered : ∀ item ∈ items, holds item = .ok (test item)) :
    items.filterM holds = .ok (items.filter test) := by
  refine bind_eq_ok_iff.mpr ⟨_, filterAuxM_of_ok answered [], ?_⟩
  simp [pure, Except.pure]

/-- A selection that succeeds has an answer for every item. -/
theorem exists_ok_of_filterAuxM {holds : α → Except ε Bool} {items kept result : List α}
    (done : items.filterAuxM holds kept = .ok result) :
    ∀ item ∈ items, ∃ answer, holds item = .ok answer := by
  induction items generalizing kept with
  | nil => simp
  | cons first items inductionHypothesis =>
      obtain ⟨answer, tested, later⟩ := bind_eq_ok_iff.mp done
      rw [List.forall_mem_cons]
      exact ⟨⟨answer, tested⟩, inductionHypothesis later⟩

/-- A filter that succeeds has an answer for every item. -/
theorem exists_ok_of_filterM {holds : α → Except ε Bool} {items result : List α}
    (done : items.filterM holds = .ok result) : ∀ item ∈ items, ∃ answer, holds item = .ok answer := by
  obtain ⟨reversed, aux, _⟩ := bind_eq_ok_iff.mp done
  exact exists_ok_of_filterAuxM aux

end HeaderBook
