import HeaderBook.Encoding
import HeaderBook.Platform

/-!
# The standard platform

The platform on which the program runs by itself: it knows the encodings of
`HeaderBook.Encoding` and reads the part of YAML that settings are commonly written in.
-/

namespace HeaderBook

/-- The standard platform, with given home directories. -/
def Platform.standard (homes : Homes) : Platform :=
  { codecs := Encoding.codecs, yaml := Yaml.Value.ofText, homes }

end HeaderBook
