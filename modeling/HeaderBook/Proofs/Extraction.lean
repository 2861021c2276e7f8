import HeaderBook.Proofs.BraceMatching
import HeaderBook.Proofs.Restoration

/-!
# Extraction at the level of the source

Which parts of a source are extracted can be said without markers: a documented
piece begins with a run of comment lines outside all matched braces and reaches
through the first terminator, a semicolon outside all matched braces or the closing
brace of an outermost pair, unless another such run comes before it. After a closing
brace the piece takes in a semicolon that follows on spaces and tabs only.

`IsPiece` says this about positions among the tokens of the source, and the
declarations of a document are shown to be exactly the pieces.
-/

namespace HeaderBook.Source

open Text (numberLimit)

/-! ### Pieces -/

/-- A position between the braces of a matched pair. -/
def InsidePair (tokens : List Token) (position : Nat) : Prop :=
  ∃ pair ∈ matchedPairs tokens, pair.1 < position ∧ position < pair.2

/-- A run of comment lines outside all matched pairs. -/
def ExposedRun (tokens : List Token) (position : Nat) : Prop :=
  (∃ lines, tokens[position]? = some (.comment lines)) ∧ ¬ InsidePair tokens position

/-- A matched pair that lies within no other. -/
def OutermostPair (tokens : List Token) (pair : Nat × Nat) : Prop :=
  pair ∈ matchedPairs tokens ∧
    ∀ other ∈ matchedPairs tokens, other.1 ≤ pair.1 → pair.2 ≤ other.2 → other = pair

/-- An exposed semicolon, or the closing brace of an outermost pair. -/
def Terminates (tokens : List Token) (position : Nat) : Prop :=
  (tokens[position]? = some (.char ';') ∧ ¬ InsidePair tokens position) ∨
    ∃ start, OutermostPair tokens (start, position)

/-- Spaces and tabs with a semicolon after them, if the tokens begin so. -/
def Token.trailer : List Token → List Token
  | [] => []
  | token :: rest =>
    if token = .char ';' then [token]
    else if (token = .char ' ' || token = .char '\t') && !(trailer rest).isEmpty then
      token :: trailer rest
    else []

/-- A documented piece from `start` to `stop`: an exposed run through the first
terminator, with no exposed run between them, and what a closing brace takes in. -/
def IsPiece (tokens : List Token) (start stop : Nat) : Prop :=
  ∃ last, ExposedRun tokens start ∧ start < last ∧ Terminates tokens last ∧
    (∀ position, start < position → position < last →
      ¬ Terminates tokens position ∧ ¬ ExposedRun tokens position) ∧
    stop = last + 1 +
      if tokens[last]? = some (.char '\x7d') then
        (Token.trailer (tokens.drop (last + 1))).length
      else 0

/-- The source text from `start` to `stop`. -/
def pieceText (tokens : List Token) (start stop : Nat) : Text :=
  ((tokens.drop start).take (stop - start)).flatMap Token.text

/-! ### Positions and folded items -/

section

variable {source : Text}

/-- Folding the items of a source agrees with matching its braces. -/
theorem agrees_folding (source : Text) :
    ItemFolding.Agrees (folding source) ((Token.ofText source).foldl Matching.step {}) := by
  have agrees := ItemFolding.agrees_run fun item (member : item ∈ items source) =>
    Item.atomic_of_mem_items member
  rwa [items, Item.flatMap_covered_ofTokens] at agrees

/-- The folded items cover all tokens of the source. -/
theorem width_finish (source : Text) : width (folding source).finish = (Token.ofText source).length := by
  rw [width, covered_finish]

/-- An item of the folded text stands for one token or for a block. -/
theorem atomic_or_block {item : Item} (member : item ∈ (folding source).finish) :
    (∃ token, item.Atomic token) ∨ item.kind? = some .block := by
  rcases origin_of_mem_finish member with leaf | ⟨index, body, _, _, rfl⟩
  · exact .inl (Item.atomic_of_mem_items leaf)
  · exact .inr rfl

/-- An atomic item stands where its token does. -/
theorem StandsAt.token {item : Item} {start stop : Nat} {token : Token}
    (stands : StandsAt (folding source).finish item start stop) (atomic : item.Atomic token) :
    stop = start + 1 ∧ (Token.ofText source)[start]? = some token := by
  obtain ⟨left, right, split, rfl, rfl⟩ := stands
  refine ⟨by rw [atomic.covered, List.length_singleton], ?_⟩
  rw [← covered_finish, split, List.flatMap_append, List.flatMap_cons, atomic.covered, width]
  simp

/-- A block of the folded text spans an outermost matched pair. -/
theorem StandsAt.outermostPair {item : Item} {start stop : Nat}
    (stands : StandsAt (folding source).finish item start stop) (block : item.kind? = some .block) :
    ∃ last, stop = last + 1 ∧ start ≤ last ∧ OutermostPair (Token.ofText source) (start, last) := by
  have agrees := agrees_folding source
  obtain ⟨last, rfl, order, member⟩ := agrees.spanned stands block
  refine ⟨last, rfl, order, member, fun other found before after => ?_⟩
  obtain ⟨around, lower, upper, place, _, begins, ends⟩ := agrees.enclosed other found
  simp only at before after
  rcases place.compare stands with ⟨_, rfl, rfl⟩ | earlier | later
  · exact Prod.ext (by simp only; omega) (by simp only; omega)
  · omega
  · omega

/-- What stands for a single token lies inside no matched pair. -/
theorem StandsAt.not_insidePair {item : Item} {start stop : Nat} {token : Token}
    (stands : StandsAt (folding source).finish item start stop) (atomic : item.Atomic token) :
    ¬ InsidePair (Token.ofText source) start := by
  rintro ⟨pair, member, before, after⟩
  obtain ⟨rfl, _⟩ := stands.token atomic
  obtain ⟨block, lower, upper, place, kind, begins, ends⟩ :=
    (agrees_folding source).enclosed pair member
  rcases place.compare stands with ⟨rfl, _⟩ | earlier | later
  · exact atomic.noBlock kind
  · omega
  · omega

/-- A position outside all matched pairs belongs to an item of its own, or is the
brace of an outermost pair. -/
theorem standsAt_or_brace {position : Nat} {token : Token}
    (found : (Token.ofText source)[position]? = some token)
    (outside : ¬ InsidePair (Token.ofText source) position) :
    (∃ item, StandsAt (folding source).finish item position (position + 1) ∧ item.Atomic token) ∨
      token = .char '\x7b' ∨ token = .char '\x7d' := by
  have bound : position < width (folding source).finish := by
    rw [width_finish]
    exact (List.getElem?_eq_some_iff.mp found).1
  obtain ⟨item, start, stop, stands, lower, upper⟩ := StandsAt.exists_of_lt bound
  rcases atomic_or_block stands.mem with ⟨token', atomic⟩ | block
  · obtain ⟨rfl, there⟩ := stands.token atomic
    obtain rfl : start = position := by omega
    rw [found, Option.some.injEq] at there
    exact .inl ⟨item, stands, there ▸ atomic⟩
  · obtain ⟨last, rfl, order, member, _⟩ := stands.outermostPair block
    have braces := braces_of_mem_matchedPairs member
    have edge : position = start ∨ position = last := by
      by_contra inner
      exact outside ⟨(start, last), member, by simp only; omega, by simp only; omega⟩
    rcases edge with rfl | rfl
    · exact .inr (.inl (Option.some.inj (found.symm.trans braces.1)))
    · exact .inr (.inr (Option.some.inj (found.symm.trans braces.2)))

/-- The exposed runs are the runs of the folded text. -/
theorem exposedRun_iff {position : Nat} :
    ExposedRun (Token.ofText source) position ↔
      ∃ item, StandsAt (folding source).finish item position (position + 1) ∧
        item.isRun = true := by
  constructor
  · rintro ⟨⟨lines, found⟩, outside⟩
    rcases standsAt_or_brace found outside with ⟨item, stands, atomic⟩ | brace | brace
    · exact ⟨item, stands, atomic.run.mpr ⟨lines, rfl⟩⟩
    · simp at brace
    · simp at brace
  · rintro ⟨item, stands, isRun⟩
    rcases atomic_or_block stands.mem with ⟨token, atomic⟩ | block
    · obtain ⟨lines, rfl⟩ := atomic.run.mp isRun
      exact ⟨⟨lines, (stands.token atomic).2⟩, stands.not_insidePair atomic⟩
    · simp [Item.isRun, block] at isRun

/-- A statement of the folded text ends at a terminator. -/
theorem StandsAt.terminates {item : Item} {start stop : Nat}
    (stands : StandsAt (folding source).finish item start stop) (ends : item.isEnd = true) :
    ∃ last, stop = last + 1 ∧ start ≤ last ∧ Terminates (Token.ofText source) last ∧
      ((Token.ofText source)[last]? = some (.char '\x7d') ↔ item.kind? = some .block) := by
  rcases atomic_or_block stands.mem with ⟨token, atomic⟩ | block
  · obtain ⟨rfl, found⟩ := stands.token atomic
    have segment : item.segment = .plain ';' := by
      simpa [Item.isEnd, atomic.noBlock] using ends
    have semicolon : token = .char ';' := (atomic.plain (by decide)).mp segment
    subst semicolon
    refine ⟨start, rfl, Nat.le_refl _, .inl ⟨found, stands.not_insidePair atomic⟩, ?_⟩
    simp [found, atomic.noBlock]
  · obtain ⟨last, rfl, order, outermost⟩ := stands.outermostPair block
    refine ⟨last, rfl, order, .inr ⟨start, outermost⟩, ?_⟩
    simp [block, (braces_of_mem_matchedPairs outermost.1).2]

/-- Every terminator ends a statement of the folded text. -/
theorem exists_standsAt_of_terminates {last : Nat} (terminates : Terminates (Token.ofText source) last) :
    ∃ item start, StandsAt (folding source).finish item start (last + 1) ∧ item.isEnd = true := by
  rcases terminates with ⟨found, outside⟩ | ⟨start, member, outermost⟩
  · rcases standsAt_or_brace found outside with ⟨item, stands, atomic⟩ | brace | brace
    · have segment := (atomic.plain (c := ';') (by decide)).mpr rfl
      exact ⟨item, last, stands, by simp [Item.isEnd, segment]⟩
    · simp at brace
    · simp at brace
  · obtain ⟨item, lower, upper, stands, block, begins, ends⟩ :=
      (agrees_folding source).enclosed _ member
    obtain ⟨final, rfl, _, recorded, _⟩ := stands.outermostPair block
    have same := outermost _ recorded begins (Nat.le_of_lt_succ ends)
    obtain ⟨rfl, rfl⟩ := Prod.mk.inj same
    exact ⟨item, lower, stands, by simp [Item.isEnd, block]⟩

/-! ### Pieces and statements -/

/-- Every folded item covers a token. -/
theorem covered_ne_nil {item : Item} (member : item ∈ (folding source).finish) :
    item.covered ≠ [] := by
  rcases atomic_or_block member with ⟨token, atomic⟩ | block
  · rw [atomic.covered]
    exact List.cons_ne_nil _ _
  · obtain ⟨left, right, split⟩ := List.append_of_mem member
    have stands : StandsAt (folding source).finish item _ _ := ⟨left, right, split, rfl, rfl⟩
    obtain ⟨last, size, order, _⟩ := stands.outermostPair block
    intro empty
    rw [empty, List.length_nil] at size
    omega

/-- A folded item begins before it ends. -/
theorem StandsAt.start_lt_stop {item : Item} {start stop : Nat}
    (stands : StandsAt (folding source).finish item start stop) : start < stop := by
  have nonempty := List.length_pos_iff.mpr (covered_ne_nil stands.mem)
  obtain ⟨_, _, _, _, rfl⟩ := stands
  omega

/-- The tokens after a part of the folded text are those of the other items. -/
theorem drop_width {front rest : List Item} (whole : (folding source).finish = front ++ rest) :
    (Token.ofText source).drop (width front) = rest.flatMap Item.covered := by
  rw [← covered_finish, whole, List.flatMap_append, width, List.drop_left]

/-- What a closing brace takes in is the same among tokens and among items. -/
theorem trailer_covered {front rest : List Item} (whole : (folding source).finish = front ++ rest) :
    Token.trailer (rest.flatMap Item.covered) = (Item.trailer rest).flatMap Item.covered := by
  induction rest generalizing front with
  | nil => rfl
  | cons item rest inductionHypothesis =>
      have moved : (folding source).finish = (front ++ [item]) ++ rest := by simp [whole]
      have tail := inductionHypothesis moved
      have member : ∀ other ∈ item :: rest, other ∈ (folding source).finish := by
        intro other inside
        rw [whole]
        exact List.mem_append_right _ inside
      have empty : (Token.trailer (rest.flatMap Item.covered)).isEmpty =
          (Item.trailer rest).isEmpty := by
        rw [tail]
        cases trailing : Item.trailer rest with
        | nil => rfl
        | cons first others =>
            have inside : first ∈ rest := Item.mem_of_mem_trailer (by simp [trailing])
            have nonempty := covered_ne_nil (member first (List.mem_cons_of_mem _ inside))
            simp [nonempty]
      rcases atomic_or_block (member item List.mem_cons_self) with ⟨token, atomic⟩ | block
      · have semicolon := atomic.plain (c := ';') (by decide)
        have space := atomic.plain (c := ' ') (by decide)
        have tab := atomic.plain (c := '\t') (by decide)
        rw [List.flatMap_cons, atomic.covered, List.singleton_append, Token.trailer, Item.trailer,
          Item.isGap, empty, tail]
        simp only [← semicolon, ← space, ← tab]
        split
        · rw [List.flatMap_singleton, atomic.covered]
        · split
          · rw [List.flatMap_cons, atomic.covered, List.singleton_append]
          · rfl
      · have stands : StandsAt (folding source).finish item _ _ := ⟨front, rest, whole, rfl, rfl⟩
        obtain ⟨last, _, _, outermost⟩ := stands.outermostPair block
        have brace := (braces_of_mem_matchedPairs outermost.1).1
        have tokens := drop_width whole
        have noItem : Item.trailer (item :: rest) = [] := by
          have marker : ∀ c, item.segment ≠ .plain c := by
            intro c plain
            simp [Item.kind?, plain] at block
          simp [Item.trailer, Item.isGap, marker]
        have head : ((item :: rest).flatMap Item.covered).head? = some (.char '\x7b') := by
          rw [← tokens, List.head?_drop]
          exact brace
        rw [noItem, List.flatMap_nil]
        obtain ⟨more, shape⟩ := List.head?_eq_some_iff.mp head
        rw [shape, Token.trailer]
        simp

/-- A run of comments covers one token. -/
theorem covered_length_of_isRun {run : Item} (member : run ∈ (folding source).finish)
    (isRun : run.isRun = true) : run.covered.length = 1 := by
  rcases atomic_or_block member with ⟨token, atomic⟩ | block
  · rw [atomic.covered, List.length_singleton]
  · simp [Item.isRun, block] at isRun

/-- Where a piece stops is where the items of its entry stop. -/
theorem piece_stop {before init after : List Item} {run ender : Item} {last : Nat}
    (whole : (folding source).finish = before ++ run :: (init ++ ender :: after))
    (ends : last + 1 = width (before ++ run :: (init ++ [ender])))
    (brace : (Token.ofText source)[last]? = some (.char '\x7d') ↔ ender.kind? = some .block) :
    (last + 1 + if (Token.ofText source)[last]? = some (.char '\x7d') then
        (Token.trailer ((Token.ofText source).drop (last + 1))).length else 0) =
      width before + width (Entry.items ⟨run, init ++ [ender], after⟩) := by
  have split : (folding source).finish = (before ++ run :: (init ++ [ender])) ++ after := by
    simp [whole]
  have trailing : (Token.trailer ((Token.ofText source).drop (last + 1))).length =
      width (Item.trailer after) := by
    rw [ends, drop_width split, trailer_covered split]
    rfl
  rw [trailing, Entry.items, Entry.endsInBlock, List.getLast?_concat, ends]
  by_cases block : ender.kind? = some .block
  · rw [if_pos (brace.mpr block), if_pos (by simpa using block)]
    simp only [width_append, width_cons, width_nil]
    omega
  · rw [if_neg fun closing => block (brace.mp closing), if_neg (by simpa using block)]
    simp only [width_append, width_cons, width_nil]
    omega

section

variable {before rest : List Item} {run : Item}
  (whole : (folding source).finish = before ++ run :: rest) (isRun : run.isRun = true)

include whole isRun

/-- A statement after a run of the folded text is a piece. -/
theorem isPiece_of_statement? {body after : List Item}
    (found : Item.statement? rest = some (body, after)) :
    IsPiece (Token.ofText source) (width before)
      (width before + width (Entry.items ⟨run, body, after⟩)) := by
  have standsRun : StandsAt (folding source).finish run _ _ := ⟨before, rest, whole, rfl, rfl⟩
  have one := covered_length_of_isRun standsRun.mem isRun
  rw [one] at standsRun
  obtain ⟨rfl, init, ender, rfl, ends, others⟩ := Item.of_statement? found
  rw [List.append_assoc, List.singleton_append] at whole
  have standsEnder : StandsAt (folding source).finish ender _ _ :=
    ⟨before ++ run :: init, after, by simp [whole], rfl, rfl⟩
  obtain ⟨last, size, order, terminates, brace⟩ := standsEnder.terminates ends
  simp only [width_append, width_cons, one] at size order
  -- Whatever ends or begins between the run and the end of the statement stands in `init`.
  have between : ∀ {item start position}, width before < position → position < last →
      StandsAt (folding source).finish item start (position + 1) → item ∈ init := by
    intro item start position lower upper stands
    have split : (folding source).finish = (before ++ [run]) ++ init ++ ender :: after := by
      simp [whole]
    rcases stands.compare standsEnder with ⟨_, _, same⟩ | earlier | later
    · simp only [width_append, width_cons, one] at same
      omega
    · have order' := stands.start_lt_stop
      simp only [width_append, width_cons, one] at earlier
      apply stands.mem_between split
      · simp only [width_append, width_cons, one, width_nil]
        omega
      · simp only [width_append, width_cons, one, width_nil]
        omega
    · have order' := stands.start_lt_stop
      simp only [width_append, width_cons, one] at later
      omega
  refine ⟨last, exposedRun_iff.mpr ⟨run, standsRun, isRun⟩, by omega, terminates, ?_, ?_⟩
  · intro position lower upper
    constructor
    · intro terminator
      obtain ⟨item, start, stands, isEnd⟩ := exists_standsAt_of_terminates terminator
      have inside := between lower upper stands
      simp [(others item inside).1] at isEnd
    · intro exposed
      obtain ⟨item, stands, isRun'⟩ := exposedRun_iff.mp exposed
      have inside := between lower upper stands
      simp [(others item inside).2] at isRun'
  · refine (piece_stop whole ?_ brace).symm
    simp only [width_append, width_cons, one, width_nil]
    omega

/-- A piece is a statement after a run of the folded text. -/
theorem statement?_of_isPiece {stop : Nat}
    (piece : IsPiece (Token.ofText source) (width before) stop) :
    ∃ body after, Item.statement? rest = some (body, after) ∧
      stop = width before + width (Entry.items ⟨run, body, after⟩) := by
  obtain ⟨last, _, order, terminates, between, rfl⟩ := piece
  have standsRun : StandsAt (folding source).finish run _ _ := ⟨before, rest, whole, rfl, rfl⟩
  have one := covered_length_of_isRun standsRun.mem isRun
  obtain ⟨ender, start, stands, ends⟩ := exists_standsAt_of_terminates terminates
  have later : ∃ start' stop', StandsAt rest ender start' stop' ∧
      last + 1 = width before + 1 + stop' := by
    have split : (folding source).finish = (before ++ [run]) ++ rest := by simp [whole]
    rw [split] at stands
    rcases stands.of_append with early | ⟨start', stop', inRest, _, size⟩
    · have bound := early.stop_le
      simp only [width_append, width_cons, one, width_nil] at bound
      omega
    · simp only [width_append, width_cons, one, width_nil] at size
      exact ⟨start', stop', inRest, by omega⟩
  obtain ⟨_, _, ⟨init, after, rfl, rfl, rfl⟩, size⟩ := later
  have others : ∀ item ∈ init, item.isEnd = false ∧ item.isRun = false := by
    intro item member
    obtain ⟨left, right, rfl⟩ := List.append_of_mem member
    have place : StandsAt (folding source).finish item _ _ :=
      ⟨before ++ run :: left, right ++ ender :: after, by simp [whole], rfl, rfl⟩
    simp only [width_append, width_cons, one] at place size
    have nonempty := List.length_pos_iff.mpr (covered_ne_nil stands.mem)
    constructor
    · by_contra isEnd
      obtain ⟨last', stop', order', terminates', _⟩ := place.terminates (by simpa using isEnd)
      exact (between last' (by omega) (by omega)).1 terminates'
    · by_contra isRun'
      have single := covered_length_of_isRun place.mem (by simpa using isRun')
      rw [single] at place
      have exposed := exposedRun_iff.mpr ⟨item, place, by simpa using isRun'⟩
      exact (between _ (by omega) (by omega)).2 exposed
  refine ⟨init ++ [ender], after, Item.statement?_eq_some ends others, ?_⟩
  obtain ⟨last', ends', _, _, brace⟩ := stands.terminates ends
  obtain rfl : last' = last := by omega
  refine piece_stop whole ?_ brace
  simp only [width_append, width_cons, one, width_nil]
  omega

end

/-- The tokens that an entry covers are those of its piece. -/
theorem slice_entry {before rest body after : List Item} {run : Item}
    (whole : (folding source).finish = before ++ run :: rest)
    (found : Item.statement? rest = some (body, after)) :
    ((Token.ofText source).drop (width before)).take (width (Entry.items ⟨run, body, after⟩)) =
      (Entry.items ⟨run, body, after⟩).flatMap Item.covered := by
  obtain ⟨tail, more, items, rfl, _⟩ := Entry.exists_tail found run
  rw [drop_width whole, items, ← List.cons_append, List.flatMap_append, width, List.take_left]

/-- The next exposed run comes after all of an entry. -/
theorem entry_before_exposedRun {before rest body after : List Item} {run : Item} {position : Nat}
    (whole : (folding source).finish = before ++ run :: rest) (isRun : run.isRun = true)
    (found : Item.statement? rest = some (body, after))
    (exposed : ExposedRun (Token.ofText source) position) (later : width before < position) :
    width before + width (Entry.items ⟨run, body, after⟩) ≤ position := by
  obtain ⟨next, place, isRun'⟩ := exposedRun_iff.mp exposed
  obtain ⟨tail, more, items, rfl, noRun⟩ := Entry.exists_tail found run
  have member : run ∈ (folding source).finish := by
    rw [whole]
    exact List.mem_append_right _ List.mem_cons_self
  have one := covered_length_of_isRun member isRun
  have split : (folding source).finish = (before ++ [run]) ++ tail ++ more := by simp [whole]
  rw [items]
  by_contra inside
  have between : next ∈ tail := by
    apply place.mem_between split
    · simp only [width_append, width_cons, one, width_nil]
      omega
    · simp only [width_append, width_cons, one, width_nil] at inside ⊢
      omega
  simp [noRun next between] at isRun'

/-- The pieces from an item of the folded text on: the statement that the item
documents, if there is one, and the pieces after the item. -/
theorem isPiece_from_iff {before rest : List Item} {item : Item} {start stop : Nat}
    (whole : (folding source).finish = before ++ item :: rest) :
    width before ≤ start ∧ IsPiece (Token.ofText source) start stop ↔
      (item.isRun = true ∧ ∃ body after, Item.statement? rest = some (body, after) ∧
        start = width before ∧ stop = width before + width (Entry.items ⟨item, body, after⟩)) ∨
      (width (before ++ [item]) ≤ start ∧ IsPiece (Token.ofText source) start stop) := by
  have stands : StandsAt (folding source).finish item _ _ := ⟨before, rest, whole, rfl, rfl⟩
  have step : width (before ++ [item]) = width before + item.covered.length := by simp
  constructor
  · rintro ⟨late, piece⟩
    have ⟨_, exposed, _⟩ := piece
    obtain ⟨run, place, isRun⟩ := exposedRun_iff.mp exposed
    rcases place.compare stands with ⟨rfl, rfl, _⟩ | earlier | later
    · obtain ⟨body, after, found, size⟩ := statement?_of_isPiece whole isRun piece
      exact .inl ⟨isRun, body, after, found, rfl, size⟩
    · omega
    · exact .inr ⟨by omega, piece⟩
  · rintro (⟨isRun, body, after, found, rfl, rfl⟩ | ⟨late, piece⟩)
    · exact ⟨Nat.le_refl _, isPiece_of_statement? whole isRun found⟩
    · exact ⟨by omega, piece⟩

/-- The entries among the last items of the folded text are the pieces that begin
there, in order and disjoint. -/
theorem exists_spans {before rest : List Item} (whole : (folding source).finish = before ++ rest) :
    ∃ spans : List (Nat × Nat),
      (∀ start stop, (start, stop) ∈ spans ↔
        width before ≤ start ∧ IsPiece (Token.ofText source) start stop) ∧
      spans.Pairwise (fun first second => first.2 ≤ second.1) ∧
      (entries rest).map (fun entry => entry.items.flatMap Item.covered) =
        spans.map fun span => ((Token.ofText source).drop span.1).take (span.2 - span.1) := by
  induction rest generalizing before with
  | nil =>
      refine ⟨[], fun start stop => ⟨nofun, ?_⟩, .nil, rfl⟩
      rintro ⟨late, last, exposed, _⟩
      obtain ⟨item, stands, _⟩ := exposedRun_iff.mp exposed
      have bound := stands.stop_le
      rw [whole, List.append_nil] at bound
      omega
  | cons item rest inductionHypothesis =>
      have moved : (folding source).finish = (before ++ [item]) ++ rest := by simp [whole]
      obtain ⟨spans, pieces, order, covered⟩ := inductionHypothesis moved
      have stands : StandsAt (folding source).finish item _ _ := ⟨before, rest, whole, rfl, rfl⟩
      by_cases isRun : item.isRun = true
      · cases found : Item.statement? rest with
        | none =>
            refine ⟨spans, fun start stop => ?_, order, ?_⟩
            · rw [isPiece_from_iff whole, pieces]
              simp [found]
            · rw [entries, if_pos isRun, found]
              exact covered
        | some statement =>
            obtain ⟨body, after⟩ := statement
            refine ⟨(width before, width before + width (Entry.items ⟨item, body, after⟩)) :: spans,
              fun start stop => ?_, List.pairwise_cons.mpr ⟨fun span member => ?_, order⟩, ?_⟩
            · rw [isPiece_from_iff whole, List.mem_cons, pieces]
              simp [isRun, found]
            · obtain ⟨late, _, exposed, _⟩ := (pieces span.1 span.2).mp member
              have one := covered_length_of_isRun stands.mem isRun
              rw [width_append, width_cons, one] at late
              exact entry_before_exposedRun whole isRun found exposed (by omega)
            · have slice := slice_entry whole found
              rw [entries, if_pos isRun, found, List.map_cons, List.map_cons, covered,
                Nat.add_sub_cancel_left, slice]
      · refine ⟨spans, fun start stop => ?_, order, ?_⟩
        · rw [isPiece_from_iff whole, pieces]
          simp [isRun]
        · rw [entries, if_neg isRun]
          exact covered

end

/-! ### The declarations of a document -/

/-- The items of an entry are folded items. -/
theorem mem_finish_of_mem_entry {source : Text} {entry : Entry}
    (member : entry ∈ entries (folding source).finish) :
    ∀ item ∈ entry.items, item ∈ (folding source).finish := by
  have stands := standsIn_of_mem_entries member
  obtain ⟨before, place⟩ := stands.place
  obtain ⟨tail, more, items, rest, _⟩ := Entry.exists_tail stands.statement entry.run
  have parts : entry.items = entry.run :: tail := items
  intro item inside
  rw [parts] at inside
  rw [place, rest, ← List.cons_append]
  exact List.mem_append_right _ (List.mem_append_left _ inside)

/-- In a source without marker-shaped text the declarations, each restored, are
exactly the documented pieces of the source, in order and disjoint. Classes and
functions are the two parts of the declarations. -/
theorem restore_declarations_build (path : CodeText) (source : Text)
    (short : source.length < numberLimit) (unmarked : Unmarked source) :
    ∃ (document : Document) (spans : List (Nat × Nat)),
      Document.build path source = .ok document ∧
      (∀ start stop, (start, stop) ∈ spans ↔ IsPiece (Token.ofText source) start stop) ∧
      spans.Pairwise (fun first second => first.2 ≤ second.1) ∧
      ∃ merged : List Declaration,
        document.classes = merged.filter (·.kind = .classLike) ∧
        document.functions = merged.filter (·.kind = .functionLike) ∧
        merged.mapM (fun declaration => document.restore declaration.text) =
          .ok (spans.map fun span => pieceText (Token.ofText source) span.1 span.2) := by
  have whole : (folding source).finish = [] ++ (folding source).finish := rfl
  obtain ⟨spans, pieces, order, covered⟩ := exists_spans whole
  have each : ∀ entry ∈ entries (folding source).finish,
      (Document.ofSource path source).restore entry.declaration.text =
        .ok ((entry.items.flatMap Item.covered).flatMap Token.text) := by
    intro entry member
    have inside := mem_finish_of_mem_entry member
    have restored : (Document.ofSource path source).restore entry.declaration.text = _ :=
      Document.restore_items short unmarked.readable unmarked.marker_not_mem inside
    have same : ∀ token ∈ entry.items.flatMap Item.covered, token.restored = token.text := by
      intro token found
      apply unmarked.restored_eq_text
      rw [← covered_finish]
      obtain ⟨item, member', covers⟩ := List.mem_flatMap.mp found
      exact List.mem_flatMap.mpr ⟨item, inside item member', covers⟩
    rw [restored, List.flatMap_congr same]
  refine ⟨.ofSource path source, spans, Document.build_eq_ok path short, ?_, order,
    (entries (folding source).finish).map Entry.declaration, rfl, rfl, ?_⟩
  · intro start stop
    rw [pieces, width_nil, and_iff_right (Nat.zero_le start)]
  · rw [List.mapM_map]
    have texts := congrArg (List.map (List.flatMap Token.text)) covered
    rw [List.map_map, List.map_map] at texts
    exact (mapM_eq_ok each).trans (congrArg Except.ok texts)

/-- A comment line, an empty block and a semicolon after a space. -/
def documentedBlock : Text :=
  ['/', '/', '\n', '\x7b', '\x7d', ' ', ';']

/-- The tokens of the documented block. -/
theorem tokens_documentedBlock : Token.ofText documentedBlock =
    [.comment [['/', '/', '\n']], .char '\x7b', .char '\x7d', .char ' ', .char ';'] := by
  have rest : Token.ofText ['\x7b', '\x7d', ' ', ';'] =
      [.char '\x7b', .char '\x7d', .char ' ', .char ';'] := by
    simp [Token.ofText_char, Lexeme.next_eq_other, Lexeme.isPlain]
  have line : Token.ofText ('/' :: '/' :: ([] ++ ['\n', '\x7b', '\x7d', ' ', ';'])) = _ :=
    Token.ofText_line List.not_mem_nil (.inr ⟨_, rfl⟩)
  have ended : Token.lineEnd ['\n', '\x7b', '\x7d', ' ', ';'] =
      (['\n'], ['\x7b', '\x7d', ' ', ';']) := by
    decide
  rw [ended, rest] at line
  exact line

/-- All of it is one piece. -/
theorem isPiece_documentedBlock : IsPiece (Token.ofText documentedBlock) 0 5 := by
  rw [tokens_documentedBlock]
  have pairs : matchedPairs [.comment [['/', '/', '\n']], .char '\x7b', .char '\x7d', .char ' ',
      .char ';'] = [(1, 2)] := by
    decide
  refine ⟨2, ⟨⟨_, rfl⟩, ?_⟩, by decide, .inr ⟨1, ?_, ?_⟩, ?_, rfl⟩
  · simp [InsidePair, pairs]
  · simp [pairs]
  · simp [pairs]
  · intro position lower upper
    obtain rfl : position = 1 := by omega
    constructor
    · simp [Terminates, OutermostPair, pairs]
    · simp [ExposedRun]

/-- The one declaration of the documented block is restored to the whole of it. -/
theorem restore_declarations_build_documentedBlock :
    Unmarked documentedBlock ∧
    ∃ (document : Document) (spans : List (Nat × Nat)) (merged : List Declaration),
      Document.build [] documentedBlock = .ok document ∧ (0, 5) ∈ spans ∧
      merged.mapM (fun declaration => document.restore declaration.text) =
        .ok (spans.map fun span => pieceText (Token.ofText documentedBlock) span.1 span.2) := by
  have unmarked : Unmarked documentedBlock := .of_not_mem (by decide)
  have short : documentedBlock.length < numberLimit := Text.lt_numberLimit_of_le (by decide)
  obtain ⟨document, spans, built, pieces, _, merged, _, _, restored⟩ :=
    restore_declarations_build [] documentedBlock short unmarked
  refine ⟨unmarked, document, spans, merged, built, ?_, restored⟩
  exact (pieces 0 5).mpr isPiece_documentedBlock

end HeaderBook.Source
