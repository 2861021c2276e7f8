import HeaderBook.Encoding.Idna
import HeaderBook.Encoding.Utf16
import HeaderBook.Encoding.Utf8

/-!
# Text encodings

The codecs of some encodings. An encoding is chosen by name. Names are compared after
normalisation: letters count as lower case, and every run of characters other than
ASCII letters, digits and full stops counts as one low line, none at the ends.
-/

namespace HeaderBook

/-- The encodings in which files are read and written. -/
inductive Encoding where
  | utf8
  /-- UTF-8 that writes a byte order mark and skips one on reading. -/
  | utf8Signed
  | ascii
  | latin1
  /-- UTF-16 that writes a byte order mark and goes by one on reading. -/
  | utf16
  | utf16LittleEndian
  /-- The encoding for the names of hosts. -/
  | idna
  /-- The encoding that refuses every text. -/
  | refusing
  deriving DecidableEq, Repr

namespace Encoding

/-- `normalizeFrom pending name` is the normal form of an encoding's name, where
`pending` tells that a run of other characters stands before `name`. -/
def normalizeFrom (pending : Bool) : Text → Text
  | [] => []
  | c :: rest =>
    if c.isAlphanum || c = '.' then
      (if pending then ['_', c.toLower] else [c.toLower]) ++ normalizeFrom false rest
    else
      normalizeFrom true rest

/-- The normal form of an encoding's name. -/
def normalize (name : Text) : Text :=
  normalizeFrom false (name.dropWhile fun c => !(c.isAlphanum || c = '.'))

/-- The normal names under which something is known: one of its own, and others,
in which full stops may stand for low lines. -/
structure Names where
  own : String
  others : List String := []

/-- `names.hold normal` holds when the normal form of a name is among the names. -/
def Names.hold (names : Names) (normal : Text) : Bool :=
  let undotted := normal.map fun c => if c = '.' then '_' else c
  names.own.toList = normal ||
    names.others.any fun other => other.toList = normal || other.toList = undotted

/-- The names of each encoding. -/
def names : Encoding → Names
  | .utf8 => ⟨"utf_8", ["cp65001", "u8", "utf", "utf8", "utf8_ucs2", "utf8_ucs4"]⟩
  | .utf8Signed => ⟨"utf_8_sig", []⟩
  | .ascii =>
    ⟨"ascii", ["646", "ansi_x3.4_1968", "ansi_x3.4_1986", "ansi_x3_4_1968", "cp367", "csascii",
      "ibm367", "iso646_us", "iso_646.irv_1991", "iso_ir_6", "us", "us_ascii"]⟩
  | .latin1 =>
    ⟨"latin_1", ["8859", "cp819", "csisolatin1", "ibm819", "iso8859", "iso8859_1", "iso_8859_1",
      "iso_8859_1_1987", "iso_ir_100", "l1", "latin", "latin1"]⟩
  | .utf16 => ⟨"utf_16", ["u16", "utf16"]⟩
  | .utf16LittleEndian => ⟨"utf_16_le", ["unicodelittleunmarked", "utf_16le"]⟩
  | .idna => ⟨"idna", []⟩
  | .refusing => ⟨"undefined", []⟩

/-- All encodings. -/
def all : List Encoding :=
  [.utf8, .utf8Signed, .ascii, .latin1, .utf16, .utf16LittleEndian, .idna, .refusing]

/-- The names of transformations that are no encodings of texts. -/
def transformations : List Names :=
  [⟨"base64_codec", ["base64", "base_64"]⟩, ⟨"bz2_codec", ["bz2"]⟩, ⟨"hex_codec", ["hex"]⟩,
    ⟨"quopri_codec", ["quopri", "quoted_printable", "quotedprintable"]⟩, ⟨"rot_13", ["rot13"]⟩,
    ⟨"uu_codec", ["uu"]⟩, ⟨"zlib_codec", ["zip", "zlib"]⟩]

/-- The encoding with a given name. -/
def lookup (name : Text) : Except LookupFailure Encoding :=
  let normal := normalize name
  match all.find? fun encoding => encoding.names.hold normal with
  | some encoding => .ok encoding
  | none => .error (if transformations.any (·.hold normal) then .notText else .unknown)

/-- A codec that keeps nothing back and objects to nothing but code points and bytes. -/
def plain (encode : CodeText → Except EncodeFailure Bytes)
    (decode : Bytes → Except DecodeFailure Text) : Codec :=
  .prompt (fun text => (encode text).mapError .codes) fun bytes => (decode bytes).mapError .bytes

/-- Reads UTF-16 by its byte order mark, which has to be there. -/
def decodeUtf16 (bytes : Bytes) : Except Failure Text :=
  match Utf16.decodeSigned bytes with
  | .ok (some text) => .ok text
  | .ok none => .error (.other "UTF-16 stream does not start with BOM".toList)
  | .error failure => .error (.bytes failure)

/-- Why the encoding that refuses every text does so. -/
def refusal : Text := "undefined encoding".toList

/-- The codec of an encoding that was asked for by a name. -/
def codec (name : Text) : Encoding → Codec
  | .utf8 => plain Utf8.encode Utf8.decode
  | .utf8Signed => plain (fun text => (Utf8.signature ++ ·) <$> Utf8.encode text) Utf8.decodeSigned
  | .ascii => plain (OneByte.encode OneByte.ascii) (OneByte.decode OneByte.ascii)
  | .latin1 => plain (OneByte.encode OneByte.latin1) (OneByte.decode OneByte.latin1)
  | .utf16 =>
    .prompt
      (fun text =>
        ((Utf16.signature ++ ·) <$> Utf16.encode "utf-16".toList text).mapError .codes)
      decodeUtf16
  | .utf16LittleEndian => plain (Utf16.encode Utf16.Order.little.codec) (Utf16.decode .little)
  | .idna => Idna.codec name
  | .refusing =>
    { encode := fun _ => .error (.ofCodec name refusal)
      write := fun _ => .error (.other refusal)
      decode := fun _ => .error (.other refusal) }

/-- The codecs of these encodings. -/
def codecs : Codecs where
  lookup name := (lookup name).map (codec name)

end Encoding
end HeaderBook
