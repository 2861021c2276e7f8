import HeaderBook.Encoding.Failure

/-!
# UTF-8

Reading refuses the first ill-formed sequence. The reported stretch is the
longest beginning of a well-formed sequence there; its reason tells whether the
first byte can begin no sequence, a later byte cannot continue it, or the data
ends inside it. Writing refuses the first run of surrogates.
-/

namespace HeaderBook.Encoding.Utf8

/-- The name of the encoding in failures. -/
def codec : Text := "utf-8".toList

/-- The characters of a text. -/
def characters (text : CodeText) : Except EncodeFailure Text :=
  match firstRefused? (!·.isSurrogate) text with
  | none => .ok (text.filterMap CodePoint.char?)
  | some (refused, start) => .error ⟨codec, refused, start, surrogatesRefused⟩

/-- Writes a text. -/
def encode (text : CodeText) : Except EncodeFailure Bytes := do
  return (← characters text).flatMap String.utf8EncodeChar

/-- What a first byte announces: the number of bytes that follow it, the bits of
the character it holds, and the range of the byte after it. -/
structure Lead where
  following : Nat
  bits : Nat
  low : Nat
  high : Nat
  deriving DecidableEq, Repr

/-- Reads a first byte. Ranges of the second byte are narrowed where longer
forms, surrogates or numbers beyond the last code point would arise. -/
def lead? (byte : Nat) : Option Lead :=
  if byte < 0x80 then some ⟨0, byte, 0, 0⟩
  else if byte < 0xC2 then none
  else if byte < 0xE0 then some ⟨1, byte - 0xC0, 0x80, 0xBF⟩
  else if byte < 0xF0 then
    some ⟨2, byte - 0xE0, if byte = 0xE0 then 0xA0 else 0x80, if byte = 0xED then 0x9F else 0xBF⟩
  else if byte < 0xF5 then
    some ⟨3, byte - 0xF0, if byte = 0xF0 then 0x90 else 0x80, if byte = 0xF4 then 0x8F else 0xBF⟩
  else none

/-- How reading the bytes after a first byte ends. -/
inductive Tail where
  /-- All of them were there: the bits of the character and the bytes after it. -/
  | complete (bits : Nat) (rest : Bytes)
  /-- The data ended. -/
  | ended
  /-- A byte could not continue the sequence after `count` bytes that did. -/
  | broken (count : Nat)
  deriving DecidableEq, Repr

/-- Reads `following` more bytes, the next of them between `low` and `high`,
after `count` that were read. -/
def tail (following count bits low high : Nat) (bytes : Bytes) : Tail :=
  match following with
  | 0 => .complete bits bytes
  | following + 1 =>
    match bytes with
    | [] => .ended
    | byte :: rest =>
      if low ≤ byte.toNat ∧ byte.toNat ≤ high then
        tail following (count + 1) (bits * 64 + (byte.toNat - 0x80)) 0x80 0xBF rest
      else
        .broken count

theorem length_of_tail_complete {following count bits low high value : Nat} {bytes rest : Bytes}
    (completed : tail following count bits low high bytes = .complete value rest) :
    rest.length ≤ bytes.length := by
  fun_induction tail following count bits low high bytes with
  | case1 =>
    simp only [Tail.complete.injEq] at completed
    simp [completed.2]
  | case2 => simp at completed
  | case3 _ _ _ _ _ _ _ _ inductionHypothesis =>
    have := inductionHypothesis completed
    simp only [List.length_cons]
    omega
  | case4 => simp at completed

/-- Reads the bytes from position `start` on. -/
def decodeFrom (start : Nat) (bytes : Bytes) : Except DecodeFailure Text :=
  match bytes with
  | [] => .ok []
  | byte :: rest =>
    match lead? byte.toNat with
    | none => .error ⟨codec, [byte], start, "invalid start byte".toList⟩
    | some lead =>
      match _read : tail lead.following 0 lead.bits lead.low lead.high rest with
      | .complete bits after => do
        let more ← decodeFrom (start + lead.following + 1) after
        return Char.ofNat bits :: more
      | .ended => .error ⟨codec, byte :: rest, start, "unexpected end of data".toList⟩
      | .broken count =>
        .error ⟨codec, byte :: rest.take count, start, "invalid continuation byte".toList⟩
termination_by bytes.length
decreasing_by
  have := length_of_tail_complete _read
  simp only [List.length_cons]
  omega

/-- Reads a text. -/
def decode (bytes : Bytes) : Except DecodeFailure Text :=
  decodeFrom 0 bytes

/-- The byte order mark. -/
def signature : Bytes := [0xEF, 0xBB, 0xBF]

/-- Reads a text that may begin with a byte order mark, which is skipped.
Positions count from after the mark. Data that ends inside a mark is empty. -/
def decodeSigned (bytes : Bytes) : Except DecodeFailure Text :=
  if bytes.isPrefixOf signature then .ok []
  else if signature.isPrefixOf bytes then decode (bytes.drop signature.length)
  else decode bytes

end HeaderBook.Encoding.Utf8
