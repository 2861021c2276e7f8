import HeaderBook.CodePoint

/-!
# Character references

Inside an element `&`, `<` and `>` are written as character references. Inside
an attribute's double quotes the two quotes are as well.
-/

namespace HeaderBook.Markup

/-- A code point of element content. -/
def escapeContentCode (code : CodePoint) : CodeText :=
  if code = '&' then codes "&amp;"
  else if code = '<' then codes "&lt;"
  else if code = '>' then codes "&gt;"
  else [code]

/-- A code point of an attribute's value. -/
def escapeAttributeCode (code : CodePoint) : CodeText :=
  if code = '"' then codes "&quot;"
  else if code = '\'' then codes "&#x27;"
  else escapeContentCode code

/-- A text as element content. -/
def escapeContent (text : CodeText) : CodeText :=
  text.flatMap escapeContentCode

/-- A text as an attribute's value. -/
def escapeAttribute (text : CodeText) : CodeText :=
  text.flatMap escapeAttributeCode

end HeaderBook.Markup
