import HeaderBook.Encoding.Codec
import HeaderBook.Homes
import HeaderBook.Yaml.Value

/-!
# Platforms

What a run relies on without being a part of it: the codecs that are there, the reader of
YAML and the home directories of users. A run is given a platform, and what holds of runs
holds on every platform.
-/

namespace HeaderBook

/-- What a run relies on. -/
structure Platform where
  codecs : Codecs
  /-- Reads the only document of a text. -/
  yaml : Text → Except Yaml.Failure Yaml.Value
  homes : Homes

end HeaderBook
