import HeaderBook.Document
import HeaderBook.Text.Blank

/-!
# Listings

The text of a page: the header's own text, then a numbered list of its classes
and one of its functions, with a blank line between the three.
-/

namespace HeaderBook.Listing

open Text (NumberTooLong)

/-- Entries numbered from `ordinal` on, blanks around each removed. -/
def numbered (ordinal : Nat) : List Text → List Text
  | [] => []
  | entry :: rest =>
    ('[' :: Text.decimal ordinal ++ [']', ' '] ++ Text.trim Text.isBlank entry) ::
      numbered (ordinal + 1) rest

/-- A heading with its numbered entries below it, or a remark that there are
none. -/
def renderSection (heading : Text) (entries : List Text) : Text :=
  let lines := if entries.isEmpty then ["(none)".toList] else numbered 1 entries
  Text.join ['\n'] (heading :: lines)

/-- The page text made of a main text and the two listings. Line breaks at the
end of the main text are dropped. -/
def content (main : Text) (classes functions : List Text) : Text :=
  Text.join ['\n', '\n']
    [Text.trimEnd (· = '\n') main,
      renderSection "Classes".toList classes,
      renderSection "Functions".toList functions]

/-- The page text of a header: the folded text and the entries as they stand
there, or, when `restoring`, the source behind them. -/
def ofDocument (document : Document) (restoring : Bool) : Except NumberTooLong Text := do
  let shown (text : Text) : Except NumberTooLong Text :=
    if restoring then document.restore text else .ok text
  let main ← shown document.text
  let classes ← document.classes.mapM fun entry => shown entry.text
  let functions ← document.functions.mapM fun entry => shown entry.text
  return content main classes functions

/-- The page text of a plain text, which has no declarations. -/
def ofText (text : Text) : Text :=
  content text [] []

end HeaderBook.Listing
