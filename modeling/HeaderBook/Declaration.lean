import HeaderBook.Marker
import HeaderBook.Text.Blank
import HeaderBook.Text.Word

/-!
# Documented declarations

In a folded text every documented statement begins with the marker of its
comment run and reaches through the first semicolon, unless the next run begins
before that. A braced body was folded into a marker that itself ends in a
semicolon, so a body also ends a statement; the semicolon that may follow the
body of a class belongs to the same entry.

A statement is class-like when its head begins with `class` or `struct`, or with
a template argument list after which one of these words stands.
-/

namespace HeaderBook

open Text (isBlank isDigit isWord)

/-- What a declaration declares. -/
inductive DeclarationKind where
  | classLike
  | functionLike
  deriving DecidableEq, Repr

/-- The word for a kind. -/
def DeclarationKind.label : DeclarationKind → Text
  | .classLike => "class".toList
  | .functionLike => "function".toList

/-- A documented statement as it stands in the folded text. -/
structure Declaration where
  kind : DeclarationKind
  text : Text
  /-- The index of the comment run that documents it. -/
  docIndex : Nat
  deriving DecidableEq, Repr

namespace Declaration

/-- A statement's characters through its first semicolon, and what follows;
nothing if the next comment run begins, or the text ends, before a semicolon. -/
def statement? : Text → Option (Text × Text)
  | [] => none
  | c :: rest =>
    if c = ';' then some ([c], rest)
    else if (MarkerKind.docComment.read? (c :: rest)).isSome then none
    else (statement? rest).map fun (body, after) => (c :: body, after)

/-- `word` stands at the beginning of `head`, and no word character follows it. -/
def beginsWithWord (head word : Text) : Bool :=
  match Text.after? word head with
  | none => false
  | some [] => true
  | some (c :: _) => !isWord c

/-- A keyword of class-like statements stands at the beginning of `head`. -/
def beginsWithClassWord (head : Text) : Bool :=
  ["class".toList, "struct".toList].any (beginsWithWord head)

/-- Some `>` before the first semicolon is followed, after blanks, by a keyword
of class-like statements. -/
def closesBeforeClassWord : Text → Bool
  | [] => false
  | c :: rest =>
    if c = ';' then false
    else (c = '>' && beginsWithClassWord (rest.dropWhile isBlank)) || closesBeforeClassWord rest

/-- `isClassHead head` decides whether a statement that begins with `head`, the
blanks after the marker skipped, is class-like. -/
def isClassHead (head : Text) : Bool :=
  beginsWithClassWord head ||
    match Text.after? "template".toList head with
    | none => false
    | some rest =>
      match rest.dropWhile isBlank with
      | '<' :: arguments => closesBeforeClassWord arguments
      | _ => false

/-- `endsInBlock text` holds when the last characters of `text` are the marker
of a block. -/
def endsInBlock (text : Text) : Bool :=
  match text.reverse with
  | ';' :: rest =>
    !(rest.takeWhile isDigit).isEmpty &&
      MarkerKind.block.opening.reverse.isPrefixOf (rest.dropWhile isDigit)
  | _ => false

/-- Spaces and tabs with a semicolon after them, at the beginning of a text. -/
def trailer (text : Text) : Text :=
  let gap := text.takeWhile fun c => c = ' ' || c = '\t'
  match text.drop gap.length with
  | ';' :: _ => gap ++ [';']
  | _ => []

/-- A statement found in a folded text. -/
structure Found where
  /-- The digits of its comment run's marker. -/
  digits : Text
  /-- What stands between the marker and the end of the statement. -/
  body : Text
  /-- What follows the statement. -/
  rest : Text

namespace Found

/-- The characters from the marker through the semicolon. -/
def span (found : Found) : Text :=
  (⟨.docComment, found.digits⟩ : Marker).text ++ found.body

/-- The characters of the entry: the span, and the semicolon after a body. -/
def text (found : Found) : Text :=
  if endsInBlock found.span then found.span ++ trailer found.rest else found.span

/-- The kind of the entry. -/
def kind (found : Found) : DeclarationKind :=
  if isClassHead (found.body.dropWhile isBlank) then .classLike else .functionLike

/-- The entry, once its index is read. -/
def declaration (found : Found) : Except Text.NumberTooLong Declaration := do
  let docIndex ← Text.readNumber found.digits
  return { kind := found.kind, text := found.text, docIndex }

end Found

/-- Reads a statement at the beginning of a text. -/
def read? (text : Text) : Option Found :=
  match MarkerKind.docComment.read? text with
  | none => none
  | some (digits, after) =>
    (statement? after).map fun (body, rest) => { digits, body, rest }

theorem append_of_statement? {text body after : Text}
    (found : statement? text = some (body, after)) : body ++ after = text := by
  fun_induction statement? text generalizing body after with
  | case1 => simp at found
  | case2 rest =>
    simp only [Option.some.injEq, Prod.mk.injEq] at found
    simp [← found.1, ← found.2]
  | case3 => simp at found
  | case4 c rest _ _ inductionHypothesis =>
    obtain ⟨⟨body', after'⟩, inner, equal⟩ := Option.map_eq_some_iff.mp found
    simp only [Prod.mk.injEq] at equal
    obtain ⟨rfl, rfl⟩ := equal
    simp [inductionHypothesis inner]

/-- A statement and what follows it are the text they were cut from. -/
theorem span_append_of_read? {text : Text} {found : Found} (read : read? text = some found) :
    found.span ++ found.rest = text := by
  unfold read? at read
  split at read
  · simp at read
  next digits after marker =>
    obtain ⟨⟨body, rest⟩, inner, rfl⟩ := Option.map_eq_some_iff.mp read
    rw [MarkerKind.text_of_read? marker, ← append_of_statement? inner]
    simp [Found.span, Marker.text]

theorem length_rest_lt {text : Text} {found : Found} (read : read? text = some found) :
    found.rest.length < text.length := by
  rw [← span_append_of_read? read]
  simp [Found.span, Marker.text]
  omega

/-- The documented statements of a folded text, left to right. -/
def found : Text → List Found
  | [] => []
  | c :: rest =>
    match _read : read? (c :: rest) with
    | some entry => entry :: found entry.rest
    | none => found rest
termination_by text => text.length
decreasing_by
  · exact length_rest_lt _read
  · simp

/-- The declarations of a folded text in text order. The index of each entry is
read as the entry is met. -/
def ofFolded (folded : Text) : Except Text.NumberTooLong (List Declaration) :=
  (found folded).mapM Found.declaration

end Declaration

/-- The class-like entries among `declarations`, in their order. -/
def Declaration.classes (declarations : List Declaration) : List Declaration :=
  declarations.filter (·.kind = .classLike)

/-- The function-like entries among `declarations`, in their order. -/
def Declaration.functions (declarations : List Declaration) : List Declaration :=
  declarations.filter (·.kind = .functionLike)

end HeaderBook
