import Mathlib.Logic.Relation
import HeaderBook.Proofs.BlockFolding

/-!
# Folding as rewriting

Folding can be said without a stack. A block is innermost when no brace stands
inside it; as long as there is one, the leftmost is captured and its marker put
in its place. `Rewrite` is one such replacement.

`foldBlocks_rewrite` is the step: the single pass gives the same before and after
a replacement. Up to the leftmost innermost block the pass closes nothing, so it
has not yet looked at the table, and the marker is collected like any text
without braces. A text without innermost blocks is left alone, and every
replacement uses up an opening brace, so the rewriting ends, and it ends where
the pass does.
-/

namespace HeaderBook.Source

/-- A braced block of `text` with no brace inside, and what stands around it. -/
structure InnermostBlock (text before body after : Text) : Prop where
  split : text = before ++ '\x7b' :: (body ++ '\x7d' :: after)
  noOpening : '\x7b' ∉ body
  noClosing : '\x7d' ∉ body

/-- The innermost block of `text` that begins first. -/
structure LeftmostBlock (text before body after : Text) : Prop
    extends InnermostBlock text before body after where
  first : ∀ {earlier body' after'}, InnermostBlock text earlier body' after' →
    before.length ≤ earlier.length

/-- The characters of a block, its braces included. -/
def blockText (body : Text) : Text :=
  '\x7b' :: (body ++ ['\x7d'])

/-- One step of the rewriting: the leftmost innermost block is captured, and the
marker of its index takes its place. -/
inductive Rewrite : Text × FragmentTable → Text × FragmentTable → Prop where
  | fold {text before body after : Text} (table : FragmentTable)
      (block : LeftmostBlock text before body after) :
      Rewrite (text, table)
        (before ++ table.kind.format table.size ++ after, table.push (blockText body))

/-! ### Innermost blocks -/

/-- A block stays innermost when a character is put in front. -/
theorem InnermostBlock.cons {text before body after : Text}
    (block : InnermostBlock text before body after) (c : Char) :
    InnermostBlock (c :: text) (c :: before) body after :=
  ⟨by rw [block.split]; rfl, block.noOpening, block.noClosing⟩

/-- A block stays innermost when text is put behind. -/
theorem InnermostBlock.append {text before body after : Text}
    (block : InnermostBlock text before body after) (more : Text) :
    InnermostBlock (text ++ more) before body (after ++ more) :=
  ⟨by simp [block.split], block.noOpening, block.noClosing⟩

/-- Of the innermost blocks of a text, one begins first. -/
theorem InnermostBlock.exists_leftmost {text before body after : Text}
    (block : InnermostBlock text before body after) :
    ∃ before body after, LeftmostBlock text before body after := by
  induction length : before.length using Nat.strongRecOn generalizing before body after with
  | _ size inductionHypothesis =>
      by_cases earlier : ∃ before' body' after',
          InnermostBlock text before' body' after' ∧ before'.length < size
      · obtain ⟨before', body', after', block', shorter⟩ := earlier
        exact inductionHypothesis _ shorter block' rfl
      · refine ⟨before, body, after, block, fun {before' body' after'} block' => ?_⟩
        rw [length]
        exact Nat.le_of_not_lt fun shorter => earlier ⟨before', body', after', block', shorter⟩

/-- `Exhausted text` holds when `text` has no innermost block. -/
def Exhausted (text : Text) : Prop :=
  ∀ before body after, ¬ InnermostBlock text before body after

/-- What stands before the leftmost innermost block has none itself. -/
theorem LeftmostBlock.exhausted_before {text before body after : Text}
    (block : LeftmostBlock text before body after) : Exhausted before := by
  intro earlier body' after' inside
  have extended := inside.append ('\x7b' :: (body ++ '\x7d' :: after))
  rw [← block.split] at extended
  have shorter : earlier.length < before.length := by
    rw [inside.split, List.length_append, List.length_cons]
    omega
  exact absurd (block.first extended) (Nat.not_le_of_lt shorter)

/-- In a text without innermost blocks all closing braces come before all opening
ones. -/
theorem Exhausted.exists_split {text : Text} (exhausted : Exhausted text) :
    ∃ left right, text = left ++ right ∧ '\x7b' ∉ left ∧ '\x7d' ∉ right := by
  induction text with
  | nil => exact ⟨[], [], rfl, List.not_mem_nil, List.not_mem_nil⟩
  | cons c rest inductionHypothesis =>
      obtain ⟨left, right, rfl, noOpening, noClosing⟩ := inductionHypothesis
        fun before body after block => exhausted _ _ _ (block.cons c)
      by_cases opening : c = '\x7b'
      · subst opening
        -- The first closing brace after `c` would end an innermost block.
        have unclosed : '\x7d' ∉ left := by
          intro closing
          obtain ⟨body, after, rfl, bare⟩ := List.eq_append_cons_of_mem closing
          refine exhausted [] body (after ++ right) ⟨by simp, ?_, bare⟩
          exact fun inside => noOpening (List.mem_append_left _ inside)
        refine ⟨[], '\x7b' :: (left ++ right), rfl, List.not_mem_nil, ?_⟩
        simp [unclosed, noClosing]
      · exact ⟨c :: left, right, rfl, by simp [Ne.symm opening, noOpening], noClosing⟩

/-! ### What the pass does with them -/

/-- As long as nothing is open, a closing brace is collected like any character. -/
theorem foldl_step_of_noOpening {text : Text} (noOpening : '\x7b' ∉ text) (current : Text)
    (table : FragmentTable) :
    text.foldl Folding.step ⟨current, [], table⟩ = ⟨text.reverse ++ current, [], table⟩ := by
  induction text generalizing current with
  | nil => rfl
  | cons c rest inductionHypothesis =>
      rw [List.mem_cons, not_or] at noOpening
      have kept : Folding.step ⟨current, [], table⟩ c = ⟨c :: current, [], table⟩ := by
        simp [Folding.step, Ne.symm noOpening.1]
      rw [List.foldl_cons, kept, inductionHypothesis noOpening.2]
      simp

/-- Text without closing braces changes the buffers only, whatever the table holds. -/
theorem foldl_step_of_noClosing {text : Text} (noClosing : '\x7d' ∉ text) (state : Folding)
    (table : FragmentTable) :
    text.foldl Folding.step { state with table } =
      { text.foldl Folding.step state with table } := by
  induction text generalizing state with
  | nil => rfl
  | cons c rest inductionHypothesis =>
      rw [List.mem_cons, not_or] at noClosing
      have same : Folding.step { state with table } c = { state.step c with table } := by
        by_cases opening : c = '\x7b' <;> simp [Folding.step, opening, Ne.symm noClosing.1]
      rw [List.foldl_cons, List.foldl_cons, same, inductionHypothesis noClosing.2]

/-- Text without closing braces is written back as it stood. -/
theorem finish_foldl_of_noClosing {text : Text} (noClosing : '\x7d' ∉ text) (state : Folding) :
    (text.foldl Folding.step state).finish = state.finish ++ text := by
  induction text generalizing state with
  | nil => simp
  | cons c rest inductionHypothesis =>
      rw [List.mem_cons, not_or] at noClosing
      have one : (state.step c).finish = state.finish ++ [c] := by
        by_cases opening : c = '\x7b' <;>
          simp [Folding.step, Folding.finish, opening, Ne.symm noClosing.1]
      rw [List.foldl_cons, inductionHypothesis noClosing.2, one, List.append_assoc]
      rfl

/-- A text without innermost blocks is folded without a look at the table. -/
theorem Exhausted.foldl_step {text : Text} (exhausted : Exhausted text) (table other : FragmentTable) :
    text.foldl Folding.step { table := other } =
      { text.foldl Folding.step { table } with table := other } := by
  obtain ⟨left, right, rfl, noOpening, noClosing⟩ := exhausted.exists_split
  rw [List.foldl_append, List.foldl_append, foldl_step_of_noOpening noOpening,
    foldl_step_of_noOpening noOpening]
  exact foldl_step_of_noClosing noClosing ⟨left.reverse ++ [], [], table⟩ other

/-- A text without innermost blocks is left alone. -/
theorem Exhausted.foldBlocks_eq {text : Text} (exhausted : Exhausted text) (table : FragmentTable) :
    foldBlocks text table = (text, table) := by
  have kept := congrArg Folding.table (exhausted.foldl_step table table)
  obtain ⟨left, right, rfl, noOpening, noClosing⟩ := exhausted.exists_split
  have whole : ((left ++ right).foldl Folding.step { table }).finish = left ++ right := by
    rw [List.foldl_append, foldl_step_of_noOpening noOpening, finish_foldl_of_noClosing noClosing]
    simp [Folding.finish]
  rw [foldBlocks, whole]
  exact Prod.ext rfl kept

/-- A whole innermost block is captured, and its marker collected. -/
theorem InnermostBlock.foldl_step {text before body after : Text}
    (block : InnermostBlock text before body after) (state : Folding) :
    (blockText body).foldl Folding.step state =
      { current := (state.table.kind.format state.table.size).reverse ++ state.current
        outer := state.outer
        table := state.table.push (blockText body) } := by
  have opened : state.step '\x7b' =
      { state with current := ['\x7b'], outer := state.current :: state.outer } := by
    simp [Folding.step]
  rw [blockText, List.foldl_cons, opened, List.foldl_append,
    ItemFolding.foldl_step_of_not_mem block.noOpening block.noClosing]
  simp [Folding.step, FragmentTable.mark]

/-- A marker of any kind holds no brace. -/
theorem brace_not_mem_format (kind : MarkerKind) (index : Nat) {brace : Char}
    (isBrace : brace = '\x7b' ∨ brace = '\x7d') : brace ∉ kind.format index := by
  have valid : (Segment.marker (.ofIndex kind index)).Valid := Marker.valid_ofIndex kind index
  have inside := ItemFolding.not_mem_text_of_valid valid isBrace (by simp)
  rwa [Segment.text, Marker.text_ofIndex] at inside

/-- The pass gives the same before and after a step of the rewriting. -/
theorem foldBlocks_rewrite {text before body after : Text}
    (block : LeftmostBlock text before body after) (table : FragmentTable) :
    foldBlocks (before ++ table.kind.format table.size ++ after) (table.push (blockText body)) =
      foldBlocks text table := by
  have tableKept := congrArg Folding.table (block.exhausted_before.foldl_step table table)
  have same : (before ++ table.kind.format table.size).foldl Folding.step
        { table := table.push (blockText body) } =
      (before ++ blockText body).foldl Folding.step { table } := by
    rw [List.foldl_append, List.foldl_append, block.foldl_step, tableKept,
      block.exhausted_before.foldl_step table,
      ItemFolding.foldl_step_of_not_mem (brace_not_mem_format _ _ (.inl rfl))
        (brace_not_mem_format _ _ (.inr rfl))]
  have whole : text = before ++ blockText body ++ after := by
    simp [block.split, blockText]
  have states : (before ++ table.kind.format table.size ++ after).foldl Folding.step
        { table := table.push (blockText body) } =
      text.foldl Folding.step { table } := by
    rw [whole, List.foldl_append, same, ← List.foldl_append]
  rw [foldBlocks, foldBlocks, states]

/-! ### Runs of the rewriting -/

/-- Folding one innermost block first leads to the same end. -/
theorem Rewrite.foldBlocks_eq {state next : Text × FragmentTable} (step : Rewrite state next) :
    foldBlocks next.1 next.2 = foldBlocks state.1 state.2 := by
  obtain ⟨table, block⟩ := step
  exact foldBlocks_rewrite block table

/-- A step uses up an opening brace. -/
theorem Rewrite.count_lt {state next : Text × FragmentTable} (step : Rewrite state next) :
    next.1.count '\x7b' < state.1.count '\x7b' := by
  obtain @⟨text, before, body, after, table, block⟩ := step
  have marker : (table.kind.format table.size).count '\x7b' = 0 :=
    List.count_eq_zero.mpr (brace_not_mem_format table.kind table.size (.inl rfl))
  have closing : ('\x7d' :: after).count '\x7b' = after.count '\x7b' :=
    List.count_cons_of_ne (by decide)
  simp only [block.split, List.count_append, List.count_cons_self, closing, marker]
  omega

/-- The rewriting is exhausted exactly when no innermost block is left. -/
theorem forall_not_rewrite_iff {state : Text × FragmentTable} :
    (∀ next, ¬ Rewrite state next) ↔ Exhausted state.1 := by
  obtain ⟨text, table⟩ := state
  constructor
  · intro exhausted before body after block
    obtain ⟨before, body, after, leftmost⟩ := block.exists_leftmost
    exact exhausted _ (.fold table leftmost)
  · rintro exhausted _ ⟨_, block⟩
    exact exhausted _ _ _ block.toInnermostBlock

/-- Every run of the rewriting ends. -/
theorem acc_rewrite (state : Text × FragmentTable) :
    Acc (fun next state => Rewrite state next) state :=
  Subrelation.accessible (fun step => step.count_lt)
    (InvImage.accessible (fun state : Text × FragmentTable => state.1.count '\x7b')
      (Nat.lt_wfRel.wf.apply _))

/-- Some run is exhausted. -/
theorem exists_exhausted (state : Text × FragmentTable) :
    ∃ result, Relation.ReflTransGen Rewrite state result ∧ ∀ next, ¬ Rewrite result next := by
  induction acc_rewrite state with
  | intro state _ inductionHypothesis =>
      by_cases goesOn : ∃ next, Rewrite state next
      · obtain ⟨next, step⟩ := goesOn
        obtain ⟨result, later, exhausted⟩ := inductionHypothesis next step
        exact ⟨result, .head step later, exhausted⟩
      · exact ⟨state, .refl, not_exists.mp goesOn⟩

/-- A run that is exhausted ends where the pass does. -/
theorem eq_foldBlocks_of_exhausted {state result : Text × FragmentTable}
    (run : Relation.ReflTransGen Rewrite state result) (exhausted : ∀ next, ¬ Rewrite result next) :
    result = foldBlocks state.1 state.2 := by
  induction run using Relation.ReflTransGen.head_induction_on with
  | refl => exact ((forall_not_rewrite_iff.mp exhausted).foldBlocks_eq result.2).symm
  | head step _ inductionHypothesis => rw [inductionHypothesis, step.foldBlocks_eq]

/-- Folding in a single pass is rewriting to exhaustion: no run of the rewriting
goes on forever, and the runs that cannot go on are those that have reached the
text and the table of the pass. -/
theorem rewrites_to_foldBlocks (text : Text) (table : FragmentTable) :
    Acc (fun next state => Rewrite state next) (text, table) ∧
      ∀ result, Relation.ReflTransGen Rewrite (text, table) result ∧
          (∀ next, ¬ Rewrite result next) ↔ result = foldBlocks text table := by
  refine ⟨acc_rewrite _, fun result => ⟨?_, ?_⟩⟩
  · rintro ⟨run, exhausted⟩
    exact eq_foldBlocks_of_exhausted run exhausted
  · rintro rfl
    obtain ⟨result, run, exhausted⟩ := exists_exhausted (text, table)
    rw [← eq_foldBlocks_of_exhausted run exhausted]
    exact ⟨run, exhausted⟩

end HeaderBook.Source
