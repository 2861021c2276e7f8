import HeaderBook.Encoding.Codec
import HeaderBook.Encoding.OneByte

/-!
# Names of hosts

The encoding for the names of hosts divides a text at its full stops into labels of
fewer than 64 characters. The label after the last full stop may go on in what follows,
so it is kept back when a text is written into a file.

Labels are taken to be ASCII here, and none of them to stand for another text.
-/

namespace HeaderBook.Encoding.Idna

/-- A label has fewer characters than this. -/
def labelLimit : Nat := 64

/-- The labels of a text. -/
def labels (text : CodeText) : List CodeText :=
  Text.split '.' text

/-- `isProper label` holds when a label is neither empty nor too long. -/
def isProper (label : CodeText) : Bool :=
  !label.isEmpty && label.length < labelLimit

/-- The characters of a text as bytes. -/
def ascii (text : CodeText) : Except Failure Bytes :=
  (OneByte.encode OneByte.ascii text).mapError .codes

/-- Why a label is refused. -/
def improper : Text := "label empty or too long".toList

/-- Encodes a text as a whole, by the codec of a name. The last label may be empty. -/
def encode (name : Text) (text : CodeText) : Except Failure Bytes :=
  if !(labels text).dropLast.all isProper then .error (.ofCodec name improper)
  else if labelLimit ≤ ((labels text).getLastD []).length then
    .error (.ofCodec name "label too long".toList)
  else ascii text

/-- What a file holds after a text was written into it: all labels but the last, each with
the full stop after it. -/
def write (text : CodeText) : Except Failure Bytes :=
  if !(labels text).dropLast.all isProper then .error (.other improper)
  else ascii ((labels text).dropLast.flatMap (· ++ codes "."))

/-- Reads a text, whatever its labels. -/
def decode (bytes : Bytes) : Except Failure Text :=
  (OneByte.decode OneByte.ascii bytes).mapError .bytes

/-- The codec that has this name. -/
def codec (name : Text) : Codec :=
  { encode := encode name, write, decode }

end HeaderBook.Encoding.Idna
