import HeaderBook.Listing
import HeaderBook.Markup.Builder

/-!
# Pages

A page is one preformatted block under a title. The skeleton around the four
texts of a page never changes, and a page is rendered once.
-/

namespace HeaderBook

open Markup (Attribute Builder Part)
open Text (NumberTooLong)

/-- A page to be rendered. -/
structure Page where
  title : CodeText
  language : CodeText := codes "en"
  charset : CodeText := codes "utf-8"
  rendered : Bool := false
  deriving DecidableEq, Repr

namespace Page

/-- Builds a page around `content`. Every element is left by its own handle. -/
def build (page : Page) (content : CodeText) : Except Markup.Failure Builder := do
  let builder := ({} : Builder).raw (codes "<!DOCTYPE html>\n")
  let (html, builder) := builder.tag "html".toList [⟨"lang".toList, .text page.language⟩]
  let builder := builder.raw ['\n']
  let (head, builder) := builder.tag "head".toList []
  let builder := builder.void "meta".toList [⟨"charset".toList, .text page.charset⟩]
  let (title, builder) := builder.tag "title".toList []
  let builder ← (builder.text page.title).leave title
  let builder ← builder.leave head
  let builder := builder.raw ['\n']
  let (body, builder) := builder.tag "body".toList []
  let (pre, builder) := builder.tag "pre".toList []
  let builder ← (builder.text content).leave pre
  let builder ← builder.leave body
  let builder ← (builder.raw ['\n']).leave html
  builder.closeAll

/-- The markup of a page with a given content. -/
def markup (page : Page) (content : CodeText) : Except Markup.Failure CodeText := do
  return (← (← page.build content).value) ++ codes "\n"

/-- Renders a page, which is afterwards marked as rendered. -/
def render (page : Page) (content : CodeText) : Except Markup.Failure CodeText × Page :=
  if page.rendered then
    (.error (.alreadyRendered page.title), page)
  else
    (page.markup content, { page with rendered := true })

/-- The parts of a page, first to last. -/
def parts (page : Page) (content : CodeText) : List Part :=
  [.raw (codes "<!DOCTYPE html>\n"),
    .opening "html".toList ([⟨"lang".toList, .text page.language⟩].flatMap Attribute.render),
    .raw ['\n'],
    .opening "head".toList [],
    .void "meta".toList ([⟨"charset".toList, .text page.charset⟩].flatMap Attribute.render),
    .opening "title".toList [], .content page.title, .closing "title".toList,
    .closing "head".toList, .raw ['\n'],
    .opening "body".toList [],
    .opening "pre".toList [], .content content, .closing "pre".toList,
    .closing "body".toList, .raw ['\n'],
    .closing "html".toList]

/-- The markup of a page, as one text. -/
def text (page : Page) (content : CodeText) : CodeText :=
  (page.parts content).flatMap Part.render ++ codes "\n"

/-- Each element is innermost when it is left, so building never fails and leaves nothing
open. -/
theorem build_eq_parts (page : Page) (content : CodeText) :
    page.build content =
      .ok { parts := page.parts content, opened := [], closed := List.replicate 5 true } := by
  cbv

/-- The skeleton closes every element it opens, so a fresh page always renders. -/
theorem markup_eq (page : Page) (content : CodeText) :
    page.markup content = .ok (page.text content) := by
  rw [markup, build_eq_parts]
  rfl

/-- The page of a header. -/
def ofDocument (page : Page) (document : Document) (restoring : Bool) :
    Except NumberTooLong CodeText := do
  return page.text (CodeText.ofText (← Listing.ofDocument document restoring))

/-- The page of a plain text. -/
def ofText (page : Page) (text : Text) : CodeText :=
  page.text (CodeText.ofText (Listing.ofText text))

end Page
end HeaderBook
