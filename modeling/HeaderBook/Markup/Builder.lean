import HeaderBook.Markup.Escape
import HeaderBook.Text.Digit
import HeaderBook.Text.Quoted

/-!
# Tag builder

Markup is built part by part. Open elements form a stack, and only the innermost
may be closed. Every element that was opened has a handle, by which it is closed
and by which it can be asked for later; a builder remembers of each handle
whether it was closed. The markup is complete when nothing is open.
-/

namespace HeaderBook.Markup

/-- The value of an attribute. -/
inductive AttributeValue where
  /-- The attribute is left out. -/
  | absent
  /-- The attribute stands without a value, or is left out. -/
  | flag (present : Bool)
  | text (value : CodeText)
  | number (value : Int)
  deriving DecidableEq, Repr

/-- An attribute: its key, as the caller spells it, and its value. -/
structure Attribute where
  key : Text
  value : AttributeValue
  deriving DecidableEq, Repr

namespace Attribute

/-- The name under which an attribute is written: low lines at the end of the
key vanish, others become hyphens. -/
def name (key : Text) : Text :=
  (Text.trimEnd (· = '_') key).map fun c => if c = '_' then '-' else c

/-- An attribute as it stands in a tag, with the space before it. -/
def render (given : Attribute) : CodeText :=
  let valued (value : CodeText) : CodeText :=
    ' ' :: (CodeText.ofText (name given.key) ++ codes "=\"" ++ escapeAttribute value ++ codes "\"")
  match given.value with
  | .absent | .flag false => []
  | .flag true => ' ' :: CodeText.ofText (name given.key)
  | .text value => valued value
  | .number value => valued (CodeText.ofText (Text.signedDecimal value))

end Attribute

/-- What went wrong with a builder or a page. -/
inductive Failure where
  /-- The handle's element was closed before. -/
  | alreadyClosed (name : Text)
  /-- Another element, or nothing, is innermost. -/
  | notInnermost (name : Text) (innermost : Option Text)
  /-- The elements that are still open, outermost first. -/
  | unclosed (names : List Text)
  /-- The page was rendered before. -/
  | alreadyRendered (title : CodeText)
  deriving DecidableEq, Repr

/-- A failure as it is reported. -/
def Failure.message : Failure → Text
  | .alreadyClosed name => ['<'] ++ name ++ "> is already closed".toList
  | .notInnermost name innermost =>
    "Cannot close <".toList ++ name ++ "> while <".toList ++
      innermost.getD "nothing".toList ++ "> is innermost".toList
  | .unclosed names => "Unclosed tags: ".toList ++ Text.join ", ".toList names
  | .alreadyRendered title =>
    "Page ".toList ++ Text.quoted title ++ " has already been rendered".toList

/-- A piece of markup. -/
inductive Part where
  /-- The tag that opens an element. -/
  | opening (name : Text) (attributes : CodeText)
  /-- An element without content and without a closing tag. -/
  | void (name : Text) (attributes : CodeText)
  /-- Escaped content. -/
  | content (text : CodeText)
  /-- Markup taken as it is. -/
  | raw (text : CodeText)
  /-- The tag that closes an element. -/
  | closing (name : Text)
  deriving DecidableEq, Repr

/-- The markup of a part. -/
def Part.render : Part → CodeText
  | .opening name attributes | .void name attributes =>
    '<' :: (CodeText.ofText name ++ attributes ++ codes ">")
  | .content text => escapeContent text
  | .raw text => text
  | .closing name => '<' :: '/' :: (CodeText.ofText name ++ codes ">")

/-- The handle of an element: its number, counted from 0 in the order of
opening, and its name. -/
structure Tag where
  number : Nat
  name : Text
  deriving DecidableEq, Repr

/-- Markup under construction. -/
structure Builder where
  /-- The parts so far, first to last. -/
  parts : List Part := []
  /-- The handles of the open elements, innermost first. -/
  opened : List Tag := []
  /-- For each handle, by its number, whether its element was closed. -/
  closed : List Bool := []
  deriving DecidableEq, Repr

namespace Builder

/-- The number of open elements. -/
def depth (builder : Builder) : Nat :=
  builder.opened.length

/-- Adds a part. -/
def add (builder : Builder) (part : Part) : Builder :=
  { builder with parts := builder.parts ++ [part] }

/-- Opens an element and gives its handle. -/
def tag (builder : Builder) (name : Text) (attributes : List Attribute) : Tag × Builder :=
  let handle : Tag := ⟨builder.closed.length, name⟩
  (handle,
    { parts := builder.parts ++ [.opening name (attributes.flatMap Attribute.render)]
      opened := handle :: builder.opened
      closed := builder.closed ++ [false] })

/-- Adds an element that has no content. -/
def void (builder : Builder) (name : Text) (attributes : List Attribute) : Builder :=
  builder.add (.void name (attributes.flatMap Attribute.render))

/-- Adds a text, escaped. -/
def text (builder : Builder) (value : CodeText) : Builder :=
  builder.add (.content value)

/-- Adds markup as it is. -/
def raw (builder : Builder) (value : CodeText) : Builder :=
  builder.add (.raw value)

/-- `isClosed builder handle` holds when the handle's element was closed. -/
def isClosed (builder : Builder) (handle : Tag) : Bool :=
  builder.closed[handle.number]?.getD false

/-- Closes the innermost open element, if there is one. -/
def closeInnermost (builder : Builder) : Builder :=
  match builder.opened with
  | [] => builder
  | handle :: outer =>
    { parts := builder.parts ++ [.closing handle.name]
      opened := outer
      closed := builder.closed.set handle.number true }

/-- Closes a handle's element, which has to be open and innermost. -/
def close (builder : Builder) (handle : Tag) : Except Failure Builder :=
  if builder.isClosed handle then
    .error (.alreadyClosed handle.name)
  else
    match builder.opened with
    | [] => .error (.notInnermost handle.name none)
    | innermost :: _ =>
      if innermost.number = handle.number then .ok builder.closeInnermost
      else .error (.notInnermost handle.name (some innermost.name))

/-- Leaves a handle's element: closes it unless that was done before. -/
def leave (builder : Builder) (handle : Tag) : Except Failure Builder :=
  if builder.isClosed handle then .ok builder else builder.close handle

/-- Closes all that is open, each element by its own handle and innermost first. -/
def closeAll (builder : Builder) : Except Failure Builder :=
  builder.opened.foldlM Builder.close builder

/-- The builder with all that is open closed, whatever the handles say. -/
def allClosed (builder : Builder) : Builder :=
  builder.opened.foldl (fun builder _ => builder.closeInnermost) builder

/-- The finished markup. -/
def value (builder : Builder) : Except Failure CodeText :=
  if builder.opened.isEmpty then
    .ok (builder.parts.flatMap Part.render)
  else
    .error (.unclosed (builder.opened.reverse.map (·.name)))

/-- A one-line account of a handle. -/
def describe (builder : Builder) (handle : Tag) : Text :=
  "<Tag ".toList ++ handle.name ++
    (if builder.isClosed handle then " closed>" else " open>").toList

end Builder
end HeaderBook.Markup
