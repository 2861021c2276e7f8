import HeaderBook.Text.Quoted

/-!
# Which files are headers

A candidate is a header when its path ends with the header extension and does
not contain the implementation marker. The extension is checked first.
-/

namespace HeaderBook

/-- What makes a path the path of a header. -/
structure HeaderRule where
  /-- The end of every header's path. -/
  extension : CodeText := codes ".hh"
  /-- A text that marks implementation files; the empty text marks none. -/
  implementationMarker : CodeText := codes "_impl"
  deriving DecidableEq, Repr

/-- Why a path is not the path of a header. -/
inductive Rejection where
  | wrongExtension (extension : CodeText)
  | implementationFile (marker : CodeText)
  deriving DecidableEq, Repr

/-- The reason as it is reported. -/
def Rejection.reason : Rejection → CodeText
  | .wrongExtension extension => codes "not a " ++ extension ++ codes " header"
  | .implementationFile marker => codes "path contains " ++ CodeText.ofText (Text.quoted marker)

/-- The reason with the path before it. -/
def Rejection.message (rejection : Rejection) (path : CodeText) : CodeText :=
  path ++ codes ": " ++ rejection.reason

/-- `rule.rejection? path` is why `path` is refused, if it is. -/
def HeaderRule.rejection? (rule : HeaderRule) (path : CodeText) : Option Rejection :=
  if !rule.extension.isSuffixOf path then
    some (.wrongExtension rule.extension)
  else if !rule.implementationMarker.isEmpty &&
      CodeText.occursIn rule.implementationMarker path then
    some (.implementationFile rule.implementationMarker)
  else
    none

end HeaderBook
