import HeaderBook.Encoding.Failure

/-!
# Codecs

A codec turns texts into bytes and back. Which codecs there are is not settled here:
they are found by name, and all that reads or writes a text is given the means to find
them.

A text is encoded as a whole, or it is written into a file. Writing hands the text over
and never says that it has ended, so a codec that waits for what follows keeps the end of
the text back, and the file never holds it. `encode` and `write` are therefore two
functions of a codec.

Reading a file as text also unifies line breaks.
-/

namespace HeaderBook

namespace Encoding

/-- Why a text could not be encoded, written or read. -/
inductive Failure where
  /-- Bytes that are no text. -/
  | bytes (failure : DecodeFailure)
  /-- Code points that cannot be written. -/
  | codes (failure : EncodeFailure)
  /-- Another objection to the text. -/
  | other (reason : Text)
  /-- The codec breaks down without an objection to the text. -/
  | breakdown (reason : Text)
  deriving DecidableEq, Repr

/-- A failure as it is reported. -/
def Failure.message : Failure → Text
  | .bytes failure => failure.message
  | .codes failure => failure.message
  | .other reason | .breakdown reason => reason

/-- An objection to a text that is encoded as a whole by the codec of a name. -/
def Failure.ofCodec (name reason : Text) : Failure :=
  .other ("encoding with '".toList ++ name ++ "' codec failed (UnicodeError: ".toList ++ reason ++
    [')'])

/-- Turns every carriage return, with the line feed after it if there is one,
into a line feed. -/
def unifyLineBreaks : Text → Text
  | '\r' :: '\n' :: rest => '\n' :: unifyLineBreaks rest
  | '\r' :: rest => '\n' :: unifyLineBreaks rest
  | c :: rest => c :: unifyLineBreaks rest
  | [] => []

/-- Why a name names no codec of texts. -/
inductive NameFailure where
  /-- Nothing has this name. -/
  | unknown (name : Text)
  /-- The name of a transformation that is no encoding of texts. -/
  | notText (name : Text)
  /-- The name holds the null character. -/
  | nullCharacter
  deriving DecidableEq, Repr

/-- The characters at the beginning of a text that fit into `room` bytes. A
character that fits only in part is shown by the replacement character. -/
def clip (room : Nat) : Text → Text
  | [] => []
  | c :: rest =>
    if c.utf8Size ≤ room then c :: clip (room - c.utf8Size) rest
    else if room = 0 then []
    else ['\ufffd']

/-- The number of bytes of a transformation's name that a report has room for. -/
def nameRoom : Nat := 400

/-- The failure of reading or writing a text by a name that names no codec, as it
is reported. -/
def NameFailure.message : NameFailure → Text
  | .unknown name => "unknown encoding: ".toList ++ name
  | .notText name =>
    '\'' :: clip nameRoom name ++
      "' is not a text encoding; use codecs.open() to handle arbitrary codecs".toList
  | .nullCharacter => "embedded null character".toList

end Encoding

/-- An encoding, by what it does. -/
structure Codec where
  /-- Encodes a text as a whole. -/
  encode : CodeText → Except Encoding.Failure Bytes
  /-- What a file holds after a text was written into it. -/
  write : CodeText → Except Encoding.Failure Bytes
  /-- Reads the content of a file, line breaks as they are. -/
  decode : Bytes → Except Encoding.Failure Text

namespace Codec

/-- A codec that keeps nothing back. -/
def prompt (encode : CodeText → Except Encoding.Failure Bytes)
    (decode : Bytes → Except Encoding.Failure Text) : Codec :=
  { encode, write := encode, decode }

/-- The text of a file, its line breaks unified. -/
def readText (codec : Codec) (bytes : Bytes) : Except Encoding.Failure Text :=
  return Encoding.unifyLineBreaks (← codec.decode bytes)

end Codec

/-- What a search by name ends in if it finds no codec of texts. -/
inductive LookupFailure where
  | unknown
  /-- The name is that of a transformation of something other than texts. -/
  | notText
  deriving DecidableEq, Repr

/-- The codecs that can be found by name. -/
structure Codecs where
  lookup : Text → Except LookupFailure Codec

/-- The codec with a given name. -/
def Codecs.find (codecs : Codecs) (name : Text) : Except Encoding.NameFailure Codec :=
  if name.contains '\x00' then .error .nullCharacter
  else
    match codecs.lookup name with
    | .ok codec => .ok codec
    | .error .unknown => .error (.unknown name)
    | .error .notText => .error (.notText name)

end HeaderBook
