import HeaderBook.Text.Digit
import HeaderBook.Text.Quoted

/-!
# Failures of reading and writing encoded text

Both kinds of failure name the encoding's rule that was broken, the stretch that
broke it, and the reason. Positions count bytes when reading and code points when
writing.
-/

namespace HeaderBook

/-- The content of a file. -/
abbrev Bytes := List UInt8

namespace Encoding

open Text (decimal hexadecimal escapeCode)

/-- Bytes that are no text in an encoding. -/
structure DecodeFailure where
  codec : Text
  /-- The bytes that could not be read; there is at least one. -/
  bytes : Bytes
  /-- The position of the first of them. -/
  start : Nat
  reason : Text
  deriving DecidableEq, Repr

/-- The positions from `start` on, `count` of them, first and last. -/
def positions (start count : Nat) : Text :=
  decimal start ++ ['-'] ++ decimal (start + count - 1)

/-- A decoding failure as it is reported. -/
def DecodeFailure.message (failure : DecodeFailure) : Text :=
  let place := match failure.bytes with
    | [byte] =>
      "byte 0x".toList ++ hexadecimal 2 byte.toNat ++ " in position ".toList ++
        decimal failure.start
    | bytes => "bytes in position ".toList ++ positions failure.start bytes.length
  ['\''] ++ failure.codec ++ "' codec can't decode ".toList ++ place ++ ": ".toList ++
    failure.reason

/-- Code points that an encoding cannot write. -/
structure EncodeFailure where
  codec : Text
  /-- The code points that could not be written; there is at least one. -/
  codes : CodeText
  /-- The position of the first of them. -/
  start : Nat
  reason : Text
  deriving DecidableEq, Repr

/-- An encoding failure as it is reported. -/
def EncodeFailure.message (failure : EncodeFailure) : Text :=
  let place := match failure.codes with
    | [code] =>
      "character '".toList ++ escapeCode code ++ "' in position ".toList ++ decimal failure.start
    | codes => "characters in position ".toList ++ positions failure.start codes.length
  ['\''] ++ failure.codec ++ "' codec can't encode ".toList ++ place ++ ": ".toList ++
    failure.reason

/-- The first run of code points on which `covered` fails, with its position. -/
def firstRefused? (covered : CodePoint → Bool) (text : CodeText) : Option (CodeText × Nat) :=
  match text.dropWhile covered with
  | [] => none
  | refused => some (refused.takeWhile (!covered ·), text.length - refused.length)

/-- Why surrogates are not written. -/
def surrogatesRefused : Text := "surrogates not allowed".toList

end Encoding
end HeaderBook
