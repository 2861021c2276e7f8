import HeaderBook.Encoding.Failure

/-!
# One byte for each character

ASCII and Latin-1 write the characters below a limit as bytes of their own
number and refuse all other code points.
-/

namespace HeaderBook.Encoding.OneByte

open Text (decimal)

/-- A one-byte encoding: its name in failures, and the first number that it
does not cover. -/
structure Charset where
  codec : Text
  limit : Nat
  deriving DecidableEq, Repr

/-- The characters below 128. -/
def ascii : Charset := ⟨"ascii".toList, 128⟩

/-- The characters below 256. -/
def latin1 : Charset := ⟨"latin-1".toList, 256⟩

/-- Why a character or byte is refused. -/
def Charset.reason (charset : Charset) : Text :=
  "ordinal not in range(".toList ++ decimal charset.limit ++ [')']

/-- `charset.covers code` holds when `code` has a byte. -/
def Charset.covers (charset : Charset) (code : CodePoint) : Bool :=
  code.toNat < charset.limit

/-- Writes a text. The first run of code points without a byte is refused. -/
def encode (charset : Charset) (text : CodeText) : Except EncodeFailure Bytes :=
  match firstRefused? charset.covers text with
  | none => .ok (text.map fun code => code.toNat.toUInt8)
  | some (refused, start) => .error ⟨charset.codec, refused, start, charset.reason⟩

/-- Reads a text. The first byte beyond the limit is refused. -/
def decode (charset : Charset) (bytes : Bytes) : Except DecodeFailure Text :=
  match bytes.dropWhile fun byte => byte.toNat < charset.limit with
  | [] => .ok (bytes.map fun byte => Char.ofNat byte.toNat)
  | byte :: after =>
    .error ⟨charset.codec, [byte], bytes.length - (after.length + 1), charset.reason⟩

end HeaderBook.Encoding.OneByte
