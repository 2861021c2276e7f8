import Mathlib.Data.List.Nodup
import Mathlib.Data.List.Perm.Basic
import HeaderBook.Markup.Builder

/-!
# The discipline of open tags

A `Session` is a builder together with the handles it has given out, and a run
performs operations one after the other, on any of those handles and whether or
not an operation fails. `Sound.perform` says what one operation preserves and
`sound_run` carries it to runs:

- a handle is on the stack exactly as long as it was not closed, and the stack is
  in the order of opening;
- the brackets written so far are the beginning of a well-nested sequence, whose
  open brackets are the stack.

What a caller can rely on is collected in `Disciplined`.
-/

namespace HeaderBook.Markup

/-! ### Brackets -/

/-- The beginning or the end of what a label names. -/
inductive Bracket (α : Type) where
  | opening (label : α)
  | closing (label : α)
  deriving DecidableEq, Repr

namespace Bracket

variable {α β : Type}

/-- The same bracket with its label changed. -/
def map (change : α → β) : Bracket α → Bracket β
  | .opening label => .opening (change label)
  | .closing label => .closing (change label)

/-- The label that a bracket opens. -/
def opened? : Bracket α → Option α
  | .opening label => some label
  | .closing _ => none

/-- The label that a bracket closes. -/
def closed? : Bracket α → Option α
  | .opening _ => none
  | .closing label => some label

end Bracket

/-- The bracket that a part of the markup is. Only tags of elements with content are. -/
def Part.bracket? : Part → Option (Bracket Text)
  | .opening name _ => some (.opening name)
  | .closing name => some (.closing name)
  | .void _ _ | .content _ | .raw _ => none

section Nesting

variable {α : Type}

/-- Sequences in which every opening bracket is closed by one with its label, and
all that is opened between the two is closed between them. -/
inductive WellNested : List (Bracket α) → Prop where
  | nil : WellNested []
  | pair (label : α) {inside after : List (Bracket α)} (inner : WellNested inside)
      (outer : WellNested after) :
      WellNested (.opening label :: (inside ++ .closing label :: after))

/-- Well-nested brackets may be put side by side. -/
theorem WellNested.append {left right : List (Bracket α)} (first : WellNested left)
    (second : WellNested right) : WellNested (left ++ right) := by
  induction first with
  | nil => exact second
  | pair label inner _ _ inductionHypothesis =>
      rw [List.cons_append, List.append_assoc, List.cons_append]
      exact .pair label inner inductionHypothesis

/-- Beginnings of well-nested sequences. The labels of the brackets that are still
open come innermost first, and what stands between those brackets is well nested. -/
inductive Layers : List α → List (Bracket α) → Prop where
  | flat {brackets : List (Bracket α)} (nested : WellNested brackets) : Layers [] brackets
  | opened {label : α} {stack : List α} {outside inside : List (Bracket α)}
      (outer : Layers stack outside) (inner : WellNested inside) :
      Layers (label :: stack) (outside ++ .opening label :: inside)

/-- Brackets with no open layer are well nested. -/
theorem Layers.wellNested {brackets : List (Bracket α)} (layers : Layers [] brackets) :
    WellNested brackets := by
  cases layers with
  | flat nested => exact nested

/-- Well-nested brackets fit into the innermost layer. -/
theorem Layers.append {stack : List α} {left right : List (Bracket α)} (layers : Layers stack left)
    (nested : WellNested right) : Layers stack (left ++ right) := by
  cases layers with
  | flat flat => exact .flat (flat.append nested)
  | opened outer inner =>
      rw [List.append_assoc, List.cons_append]
      exact .opened outer (inner.append nested)

/-- An opening bracket begins a layer. -/
theorem Layers.open {stack : List α} {brackets : List (Bracket α)} (layers : Layers stack brackets)
    (label : α) : Layers (label :: stack) (brackets ++ [.opening label]) :=
  .opened layers .nil

/-- A closing bracket ends the innermost layer. -/
theorem Layers.close {label : α} {stack : List α} {brackets : List (Bracket α)}
    (layers : Layers (label :: stack) brackets) : Layers stack (brackets ++ [.closing label]) := by
  cases layers with
  | @opened _ _ outside inside outer inner =>
      have pair := outer.append (.pair label inner .nil)
      rwa [← List.cons_append, ← List.append_assoc] at pair

end Nesting

/-! ### Sessions -/

namespace Builder

/-- The brackets among the parts. -/
def brackets (builder : Builder) : List (Bracket Text) :=
  builder.parts.filterMap Part.bracket?

@[simp] theorem number_tag (builder : Builder) (name : Text) (attributes : List Attribute) :
    (builder.tag name attributes).1.number = builder.closed.length :=
  rfl

@[simp] theorem name_tag (builder : Builder) (name : Text) (attributes : List Attribute) :
    (builder.tag name attributes).1.name = name :=
  rfl

@[simp] theorem opened_tag (builder : Builder) (name : Text) (attributes : List Attribute) :
    (builder.tag name attributes).2.opened = (builder.tag name attributes).1 :: builder.opened :=
  rfl

@[simp] theorem closed_tag (builder : Builder) (name : Text) (attributes : List Attribute) :
    (builder.tag name attributes).2.closed = builder.closed ++ [false] :=
  rfl

/-- Opening a tag writes its opening bracket. -/
@[simp] theorem brackets_tag (builder : Builder) (name : Text) (attributes : List Attribute) :
    (builder.tag name attributes).2.brackets = builder.brackets ++ [.opening name] := by
  simp [brackets, tag, Part.bracket?]

end Builder

/-- What can be done with a builder and the handles it has given out. Handles are
named by their numbers. -/
inductive Operation where
  | tag (name : Text) (attributes : List Attribute)
  | void (name : Text) (attributes : List Attribute)
  | text (value : CodeText)
  | raw (value : CodeText)
  /-- Close a handle's element. -/
  | close (number : Nat)
  /-- Leave the scope of a handle. -/
  | leave (number : Nat)
  | closeAll
  /-- Leave the scope of the builder. -/
  | leaveBuilder
  /-- Ask for the finished markup. -/
  | value
  deriving DecidableEq, Repr

/-- What an operation answers. -/
inductive Answer where
  | done
  | handle (tag : Tag)
  | markup (text : CodeText)
  deriving DecidableEq, Repr

/-- A builder and the handles it has given out, first to last. -/
structure Session where
  builder : Builder := {}
  handles : List Tag := []
  deriving DecidableEq, Repr

namespace Session

/-- Takes over a changed builder. Where there is none, nothing changes. -/
def settle (session : Session) : Except Failure Builder → Except Failure Answer × Session
  | .ok builder => (.ok .done, { session with builder })
  | .error failure => (.error failure, session)

/-- Does something with the handle of a number. Where no handle has the number,
nothing is done. -/
def withHandle (session : Session) (number : Nat) (action : Tag → Except Failure Builder) :
    Except Failure Answer × Session :=
  match session.handles[number]? with
  | some handle => session.settle (action handle)
  | none => (.ok .done, session)

/-- Performs an operation: its answer or failure, and the session afterwards. -/
def perform (session : Session) : Operation → Except Failure Answer × Session
  | .tag name attributes =>
    let (handle, builder) := session.builder.tag name attributes
    (.ok (.handle handle), { builder, handles := session.handles ++ [handle] })
  | .void name attributes => session.settle (.ok (session.builder.void name attributes))
  | .text value => session.settle (.ok (session.builder.text value))
  | .raw value => session.settle (.ok (session.builder.raw value))
  | .close number => session.withHandle number session.builder.close
  | .leave number => session.withHandle number session.builder.leave
  | .closeAll | .leaveBuilder => session.settle session.builder.closeAll
  | .value => (session.builder.value.map .markup, session)

/-- The session after operations on a fresh builder, failed ones included. -/
def run (operations : List Operation) : Session :=
  operations.foldl (fun session operation => (session.perform operation).2) {}

/-- What every operation preserves. -/
structure Sound (session : Session) : Prop where
  /-- Handles are numbered in the order of opening, and each has a flag. -/
  numbers : session.handles.map Tag.number = List.range session.builder.closed.length
  stack : session.builder.opened.reverse =
    session.handles.filter fun handle => !session.builder.isClosed handle
  /-- The brackets written so far, by their handles. -/
  trace : ∃ brackets : List (Bracket Tag), Layers session.builder.opened brackets ∧
    brackets.map (Bracket.map Tag.name) = session.builder.brackets ∧
    brackets.filterMap Bracket.opened? = session.handles ∧
    (brackets.filterMap Bracket.closed? ++ session.builder.opened).Perm session.handles

namespace Sound

variable {session : Session}

/-- A session without operations is sound. -/
theorem fresh : Sound {} :=
  ⟨rfl, rfl, [], .flat .nil, rfl, rfl, .nil⟩

/-- Every handle has a number of its own. -/
theorem nodup_numbers (sound : session.Sound) : (session.handles.map Tag.number).Nodup := by
  rw [sound.numbers]
  exact List.nodup_range

/-- No handle is given out twice. -/
theorem nodup (sound : session.Sound) : session.handles.Nodup :=
  sound.nodup_numbers.of_map

/-- Every handle is known to the builder. -/
theorem number_lt (sound : session.Sound) {handle : Tag} (member : handle ∈ session.handles) :
    handle.number < session.builder.closed.length := by
  have listed := List.mem_map_of_mem (f := Tag.number) member
  rw [sound.numbers] at listed
  exact List.mem_range.mp listed

/-- A handle is known by its number. -/
theorem eq_of_number (sound : session.Sound) {first second : Tag}
    (firstMember : first ∈ session.handles) (secondMember : second ∈ session.handles)
    (same : first.number = second.number) : first = second :=
  List.inj_on_of_nodup_map sound.nodup_numbers firstMember secondMember same

/-- A handle is on the stack as long as its flag is not set. -/
theorem mem_opened (sound : session.Sound) {handle : Tag} :
    handle ∈ session.builder.opened ↔
      handle ∈ session.handles ∧ session.builder.isClosed handle = false := by
  rw [← List.mem_reverse, sound.stack, List.mem_filter, Bool.not_eq_true']

/-- No tag is open exactly when every handle is closed. -/
theorem opened_eq_nil (sound : session.Sound) :
    session.builder.opened = [] ↔
      ∀ handle ∈ session.handles, session.builder.isClosed handle = true := by
  rw [← List.reverse_eq_nil_iff, sound.stack, List.filter_eq_nil_iff]
  simp

/-- Parts that are no brackets change nothing about elements. -/
theorem add (sound : session.Sound) {part : Part} (plain : part.bracket? = none) :
    Sound { session with builder := session.builder.add part } := by
  obtain ⟨numbers, stack, brackets, layers, written, opened, closed⟩ := sound
  refine ⟨numbers, stack, brackets, layers, ?_, opened, closed⟩
  simp [written, Builder.brackets, Builder.add, plain]

/-- Opening a tag keeps a session sound. -/
theorem tag (sound : session.Sound) (name : Text) (attributes : List Attribute) :
    Sound ⟨(session.builder.tag name attributes).2,
      session.handles ++ [(session.builder.tag name attributes).1]⟩ := by
  have flagged : ∀ handle ∈ session.handles, handle.number < session.builder.closed.length :=
    fun _ member => sound.number_lt member
  obtain ⟨numbers, stack, brackets, layers, written, opened, closed⟩ := sound
  refine ⟨?_, ?_, brackets ++ [.opening (session.builder.tag name attributes).1], ?_, ?_, ?_, ?_⟩
  · simp [numbers, List.range_succ]
  · -- The new flag is not set, and the flags of earlier handles stand where they did.
    have new : (session.builder.tag name attributes).2.isClosed
        (session.builder.tag name attributes).1 = false := by
      simp [Builder.isClosed]
    have kept : ∀ earlier ∈ session.handles,
        (!(session.builder.tag name attributes).2.isClosed earlier) =
          !session.builder.isClosed earlier := by
      intro earlier member
      simp [Builder.isClosed, List.getElem?_append_left (flagged earlier member)]
    rw [List.filter_append, List.filter_congr kept, ← stack, List.filter_singleton, new]
    simp
  · exact layers.open (session.builder.tag name attributes).1
  · simp [written, Bracket.map]
  · simp [opened, Bracket.opened?]
  · have moved := (closed.cons (session.builder.tag name attributes).1).trans
      (List.perm_append_singleton _ session.handles).symm
    simpa [List.filterMap_cons, Bracket.closed?] using List.perm_middle.trans moved

/-- The flag of the innermost handle is set when its element is closed, and no other. -/
theorem isClosed_closeInnermost (sound : session.Sound) {innermost : Tag} {outer : List Tag}
    (stack : session.builder.opened = innermost :: outer) (handle : Tag)
    (member : handle ∈ session.handles) :
    session.builder.closeInnermost.isClosed handle =
      (session.builder.isClosed handle || handle = innermost) := by
  have held := (sound.mem_opened.mp (stack ▸ List.mem_cons_self)).1
  have flagged := sound.number_lt held
  by_cases same : handle = innermost
  · simp [Builder.closeInnermost, Builder.isClosed, stack, same, flagged]
  · have different : innermost.number ≠ handle.number := fun equal =>
      same (sound.eq_of_number member held equal.symm)
    simp [Builder.closeInnermost, Builder.isClosed, stack, same, different]

/-- Closing the innermost tag keeps a session sound. -/
theorem closeInnermost (sound : session.Sound) :
    Sound { session with builder := session.builder.closeInnermost } := by
  cases stack : session.builder.opened with
  | nil =>
      have unchanged : session.builder.closeInnermost = session.builder := by
        simp [Builder.closeInnermost, stack]
      rw [unchanged]
      exact sound
  | cons innermost outer =>
      have flags := sound.isClosed_closeInnermost stack
      have listed : outer.reverse ++ [innermost] =
          session.handles.filter fun handle => !session.builder.isClosed handle := by
        rw [← List.reverse_cons, ← stack, sound.stack]
      have apart : innermost ∉ outer := by
        have distinct : (outer.reverse ++ [innermost]).Nodup := by
          rw [listed]
          exact sound.nodup.filter _
        rw [← List.reverse_cons, List.nodup_reverse] at distinct
        exact (List.nodup_cons.mp distinct).1
      obtain ⟨numbers, _, brackets, layers, written, opened, closed⟩ := sound
      rw [stack] at layers closed
      refine ⟨?_, ?_, brackets ++ [.closing innermost], ?_, ?_, ?_, ?_⟩
      · simp [Builder.closeInnermost, stack, numbers]
      · have without : (session.handles.filter fun handle =>
              !session.builder.closeInnermost.isClosed handle) =
            (outer.reverse ++ [innermost]).filter (· ≠ innermost) := by
          rw [listed, List.filter_filter]
          refine List.filter_congr fun handle member => ?_
          rw [flags handle member, Bool.not_or, Bool.and_comm]
          simp
        have outerKept : outer.reverse.filter (· ≠ innermost) = outer.reverse := by
          refine List.filter_eq_self.mpr fun handle member => ?_
          have different : handle ≠ innermost := fun equal =>
            apart (equal ▸ List.mem_reverse.mp member)
          simpa using different
        rw [without, List.filter_append, outerKept]
        simp [Builder.closeInnermost, stack]
      · simpa [Builder.closeInnermost, stack] using layers.close
      · simp [written, Builder.closeInnermost, stack, Builder.brackets, Part.bracket?, Bracket.map]
      · simp [opened, Bracket.opened?]
      · simpa [Builder.closeInnermost, stack, Bracket.closed?] using closed

/-- Closing succeeds only on the innermost element. -/
theorem eq_of_close {builder builder' : Builder} {handle : Tag}
    (closed : builder.close handle = .ok builder') : builder' = builder.closeInnermost := by
  unfold Builder.close at closed
  split at closed
  · simp at closed
  · split at closed
    · simp at closed
    · split at closed
      · exact (Except.ok.inj closed).symm
      · simp at closed

/-- Leaving a tag closes the innermost one or does nothing. -/
theorem eq_of_leave {builder builder' : Builder} {handle : Tag}
    (left : builder.leave handle = .ok builder') :
    builder' = builder ∨ builder' = builder.closeInnermost := by
  unfold Builder.leave at left
  split at left
  · exact .inl (Except.ok.inj left).symm
  · exact .inr (eq_of_close left)

/-- The innermost element can be closed by its handle. -/
theorem close_innermost (sound : session.Sound) {innermost : Tag} {outer : List Tag}
    (stack : session.builder.opened = innermost :: outer) :
    session.builder.close innermost = .ok session.builder.closeInnermost := by
  have unset := (sound.mem_opened.mp (stack ▸ List.mem_cons_self)).2
  simp [Builder.close, unset, stack]

/-- Closing all that is open never fails, and nothing stays open. -/
theorem closeAll (sound : session.Sound) :
    session.builder.closeAll = .ok session.builder.allClosed ∧
      session.builder.allClosed.opened = [] ∧
      Sound { session with builder := session.builder.allClosed } := by
  unfold Builder.closeAll Builder.allClosed
  -- The loop runs along the stack it began with, which loses its top at every turn.
  generalize stack : session.builder.opened = opened
  induction opened generalizing session with
  | nil => exact ⟨rfl, stack, sound⟩
  | cons innermost outer inductionHypothesis =>
      have popped : session.builder.closeInnermost.opened = outer := by
        simp [Builder.closeInnermost, stack]
      rw [List.foldlM_cons, sound.close_innermost stack, List.foldl_cons]
      exact inductionHypothesis sound.closeInnermost popped

/-- A session whose operation fails stays as it is. -/
theorem settle (sound : session.Sound) {result : Except Failure Builder}
    (kept : ∀ builder, result = .ok builder → Sound { session with builder }) :
    (session.settle result).2.Sound := by
  cases result with
  | ok builder => exact kept builder rfl
  | error failure => exact sound

/-- An operation on a handle keeps a session sound if the action does. -/
theorem withHandle (sound : session.Sound) (number : Nat) {action : Tag → Except Failure Builder}
    (kept : ∀ handle builder, action handle = .ok builder → Sound { session with builder }) :
    (session.withHandle number action).2.Sound := by
  unfold Session.withHandle
  split
  · exact sound.settle (kept _)
  · exact sound

/-- An operation, failed or not, leaves a sound session sound. -/
theorem perform (sound : session.Sound) (operation : Operation) :
    (session.perform operation).2.Sound := by
  cases operation with
  | tag name attributes => exact sound.tag name attributes
  | void name attributes => exact sound.add rfl
  | text value => exact sound.add rfl
  | raw value => exact sound.add rfl
  | close number =>
      refine sound.withHandle number fun handle builder closed => ?_
      rw [eq_of_close closed]
      exact sound.closeInnermost
  | leave number =>
      refine sound.withHandle number fun handle builder left => ?_
      rcases eq_of_leave left with rfl | rfl
      · exact sound
      · exact sound.closeInnermost
  | closeAll | leaveBuilder =>
      refine sound.settle fun builder closed => ?_
      rw [sound.closeAll.1] at closed
      rw [← Except.ok.inj closed]
      exact sound.closeAll.2.2
  | value => exact sound

end Sound

/-- A run keeps a sound session sound. -/
theorem Sound.foldl {session : Session} (sound : session.Sound) (operations : List Operation) :
    (operations.foldl (fun session operation => (session.perform operation).2) session).Sound := by
  induction operations generalizing session with
  | nil => exact sound
  | cons operation _ inductionHypothesis => exact inductionHypothesis (sound.perform operation)

/-- Every session is sound. -/
theorem sound_run (operations : List Operation) : (run operations).Sound :=
  Sound.fresh.foldl operations

/-! ### What a caller can rely on -/

/-- A failed operation changes nothing. -/
theorem perform_of_failure {session : Session} {operation : Operation} {failure : Failure}
    (failed : (session.perform operation).1 = .error failure) :
    (session.perform operation).2 = session := by
  have settled : ∀ result : Except Failure Builder,
      (session.settle result).1 = .error failure → (session.settle result).2 = session := by
    intro result failed
    cases result with
    | ok builder => simp [settle] at failed
    | error failure => rfl
  have handled : ∀ number action, (session.withHandle number action).1 = .error failure →
      (session.withHandle number action).2 = session := by
    intro number action failed
    unfold withHandle at failed ⊢
    split at failed
    · exact settled _ failed
    · simp at failed
  cases operation with
  | tag name attributes => simp [perform] at failed
  | void name attributes => exact settled _ failed
  | text value => exact settled _ failed
  | raw value => exact settled _ failed
  | close number => exact handled number _ failed
  | leave number => exact handled number _ failed
  | closeAll | leaveBuilder => exact settled _ failed
  | value => rfl

/-- The brackets written by a session are well nested, and each of its handles is
opened once, in the order of the handles, and closed once. -/
def Nested (session : Session) : Prop :=
  ∃ brackets : List (Bracket Tag), WellNested brackets ∧
    brackets.map (Bracket.map Tag.name) = session.builder.brackets ∧
    brackets.filterMap Bracket.opened? = session.handles ∧
    (brackets.filterMap Bracket.closed?).Perm session.handles ∧ session.handles.Nodup

/-- What holds of a session, whatever was done in it. -/
structure Disciplined (session : Session) : Prop where
  /-- Handles are numbered in the order of opening, and each has a flag. -/
  flags : session.handles.map Tag.number = List.range session.builder.closed.length
  /-- The stack, outermost first, holds the handles that were not closed. -/
  stack : session.builder.opened.reverse =
    session.handles.filter fun handle => !session.builder.isClosed handle
  depth : session.builder.depth =
    session.handles.countP fun handle => !session.builder.isClosed handle
  failing : ∀ operation failure, (session.perform operation).1 = .error failure →
    (session.perform operation).2 = session
  closingAll : ∀ operation, operation = .closeAll ∨ operation = .leaveBuilder →
    session.perform operation = (.ok .done, { session with builder := session.builder.allClosed }) ∧
      session.builder.allClosed.depth = 0
  value : ∀ text, (session.perform .value).1 = .ok (.markup text) ↔
    (∀ handle ∈ session.handles, session.builder.isClosed handle = true) ∧
      text = session.builder.parts.flatMap Part.render
  nested : (∀ handle ∈ session.handles, session.builder.isClosed handle = true) → session.Nested

/-- The depth of the builder is the number of handles not closed. -/
theorem Sound.depth {session : Session} (sound : session.Sound) : session.builder.depth =
    session.handles.countP fun handle => !session.builder.isClosed handle := by
  rw [Builder.depth, ← List.length_reverse, sound.stack, List.countP_eq_length_filter]

/-- Closing everything succeeds and leaves every handle closed. -/
theorem Sound.closingAll {session : Session} (sound : session.Sound) {operation : Operation}
    (closes : operation = .closeAll ∨ operation = .leaveBuilder) :
    session.perform operation = (.ok .done, { session with builder := session.builder.allClosed }) ∧
      session.builder.allClosed.depth = 0 := by
  obtain ⟨succeeds, nothing, _⟩ := sound.closeAll
  refine ⟨?_, by rw [Builder.depth, nothing]; rfl⟩
  rcases closes with rfl | rfl <;> rw [Session.perform, succeeds] <;> rfl

/-- The markup is given exactly when every handle is closed. -/
theorem Sound.value_iff {session : Session} (sound : session.Sound) (text : CodeText) :
    (session.perform .value).1 = .ok (.markup text) ↔
      (∀ handle ∈ session.handles, session.builder.isClosed handle = true) ∧
        text = session.builder.parts.flatMap Part.render := by
  rw [← sound.opened_eq_nil, Session.perform, Builder.value]
  cases stack : session.builder.opened with
  | nil => simp [Except.map, eq_comm]
  | cons innermost outer => simp [Except.map]

/-- With every handle closed the tags are well nested. -/
theorem Sound.nested {session : Session} (sound : session.Sound)
    (closed : ∀ handle ∈ session.handles, session.builder.isClosed handle = true) :
    session.Nested := by
  have nothing := sound.opened_eq_nil.mpr closed
  obtain ⟨brackets, layers, written, opened, perm⟩ := sound.trace
  rw [nothing] at layers perm
  rw [List.append_nil] at perm
  exact ⟨brackets, layers.wellNested, written, opened, perm, sound.nodup⟩

/-- After any operations on a fresh builder, failed ones included, the discipline of
open tags holds. -/
theorem disciplined_run (operations : List Operation) : (run operations).Disciplined where
  flags := (sound_run operations).numbers
  stack := (sound_run operations).stack
  depth := (sound_run operations).depth
  failing _ _ failed := perform_of_failure failed
  closingAll _ closes := (sound_run operations).closingAll closes
  value := (sound_run operations).value_iff
  nested := (sound_run operations).nested

end Session
end HeaderBook.Markup
