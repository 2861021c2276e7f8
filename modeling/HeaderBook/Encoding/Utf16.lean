import HeaderBook.Encoding.Failure

/-!
# UTF-16

A character is one unit of two bytes, or a high and a low surrogate. Writing is
little endian, and a text that holds surrogates itself is refused at the first of
them. Reading goes by the byte order mark where there is one.
-/

namespace HeaderBook.Encoding.Utf16

/-- The order of the two bytes of a unit. -/
inductive Order where
  | little
  | big
  deriving DecidableEq, Repr

/-- The name of an order in failures. -/
def Order.codec : Order → Text
  | .little => "utf-16-le".toList
  | .big => "utf-16-be".toList

/-- The unit made of two bytes in the order they stand. -/
def Order.unit (order : Order) (first second : UInt8) : Nat :=
  match order with
  | .little => first.toNat + 256 * second.toNat
  | .big => 256 * first.toNat + second.toNat

/-- A unit, little endian. -/
def unitBytes (unit : Nat) : Bytes :=
  [(unit % 256).toUInt8, (unit / 256).toUInt8]

/-- A character, little endian. -/
def encodeChar (c : Char) : Bytes :=
  if c.toNat < 0x10000 then unitBytes c.toNat
  else
    let offset := c.toNat - 0x10000
    unitBytes (0xD800 + offset / 0x400) ++ unitBytes (0xDC00 + offset % 0x400)

/-- Writes a text, little endian, under the name of `codec` in failures. -/
def encode (codec : Text) (text : CodeText) : Except EncodeFailure Bytes :=
  match firstRefused? (!·.isSurrogate) text with
  | none => .ok (text.flatMap fun code => (code.char?.map encodeChar).getD [])
  | some (refused, start) => .error ⟨codec, refused.take 1, start, surrogatesRefused⟩

/-- The byte order mark, little endian. -/
def signature : Bytes := [0xFF, 0xFE]

/-- High surrogates begin a pair. -/
def isHigh (unit : Nat) : Bool := 0xD800 ≤ unit && unit < 0xDC00

/-- Low surrogates end a pair. -/
def isLow (unit : Nat) : Bool := 0xDC00 ≤ unit && unit < 0xE000

/-- Reads the bytes from position `start` on. -/
def decodeFrom (order : Order) (start : Nat) : Bytes → Except DecodeFailure Text
  | [] => .ok []
  | [byte] => .error ⟨order.codec, [byte], start, "truncated data".toList⟩
  | first :: second :: rest =>
    let unit := order.unit first second
    if isLow unit then
      .error ⟨order.codec, [first, second], start, "illegal encoding".toList⟩
    else if isHigh unit then
      match rest with
      | third :: fourth :: after =>
        let low := order.unit third fourth
        if isLow low then do
          let more ← decodeFrom order (start + 4) after
          return Char.ofNat (0x10000 + (unit - 0xD800) * 0x400 + (low - 0xDC00)) :: more
        else
          .error ⟨order.codec, [first, second], start, "illegal UTF-16 surrogate".toList⟩
      | rest =>
        .error ⟨order.codec, first :: second :: rest, start, "unexpected end of data".toList⟩
    else do
      let more ← decodeFrom order (start + 2) rest
      return Char.ofNat unit :: more

/-- Reads a text in a known order. -/
def decode (order : Order) (bytes : Bytes) : Except DecodeFailure Text :=
  decodeFrom order 0 bytes

/-- A text whose byte order mark decides its order. Without a mark the bytes are
read as little endian, and the outer result is absent unless there was nothing
to read. -/
def decodeSigned (bytes : Bytes) : Except DecodeFailure (Option Text) :=
  match bytes with
  | 0xFF :: 0xFE :: rest => some <$> decodeFrom .little 2 rest
  | 0xFE :: 0xFF :: rest => some <$> decodeFrom .big 2 rest
  | [] => .ok (some [])
  | _ => do
    let _ ← decode .little bytes
    return none

end HeaderBook.Encoding.Utf16
