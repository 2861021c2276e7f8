import HeaderBook.Text

/-!
# Decimal digits

Every script's decimal digits count as digits. They come in runs of ten, zero
first, so a digit is known by the zero of its run. `decimal` writes a number
with the ASCII digits; `readNumber` reads a run of digits of any scripts and
refuses runs of more than `digitLimit` digits.
-/

namespace HeaderBook.Text

/-- The zeros of the sixty-six runs of decimal digits in Unicode 14. -/
def digitZeros : List Nat :=
  [0x30, 0x660, 0x6F0, 0x7C0, 0x966, 0x9E6, 0xA66, 0xAE6, 0xB66, 0xBE6, 0xC66, 0xCE6, 0xD66,
   0xDE6, 0xE50, 0xED0, 0xF20, 0x1040, 0x1090, 0x17E0, 0x1810, 0x1946, 0x19D0, 0x1A80, 0x1A90,
   0x1B50, 0x1BB0, 0x1C40, 0x1C50, 0xA620, 0xA8D0, 0xA900, 0xA9D0, 0xA9F0, 0xAA50, 0xABF0, 0xFF10,
   0x104A0, 0x10D30, 0x11066, 0x110F0, 0x11136, 0x111D0, 0x112F0, 0x11450, 0x114D0, 0x11650,
   0x116C0, 0x11730, 0x118E0, 0x11950, 0x11C50, 0x11D50, 0x11DA0, 0x16A60, 0x16AC0, 0x16B50,
   0x1D7CE, 0x1D7D8, 0x1D7E2, 0x1D7EC, 0x1D7F6, 0x1E140, 0x1E2F0, 0x1E950, 0x1FBF0]

/-- The value of a decimal digit, whatever its script. -/
def digitValue? (c : Char) : Option Nat :=
  (digitZeros.find? fun first => first ≤ c.toNat && c.toNat ≤ first + 9).map (c.toNat - ·)

/-- `isDigit c` holds exactly for decimal digits. -/
def isDigit (c : Char) : Bool :=
  (digitValue? c).isSome

/-- The decimal form of a number, without leading zeros. -/
def decimal (n : Nat) : Text :=
  if n < 10 then [Nat.digitChar n] else decimal (n / 10) ++ [Nat.digitChar (n % 10)]

/-- The decimal form of an integer, with a sign only when it is negative. -/
def signedDecimal : Int → Text
  | .ofNat n => decimal n
  | .negSucc n => '-' :: decimal (n + 1)

/-- The number that a run of digits denotes. A character that is no digit
counts as zero. -/
def digitsValue (digits : Text) : Nat :=
  digits.foldl (fun value c => 10 * value + (digitValue? c).getD 0) 0

/-- The longest run of digits that is read as a number. -/
def digitLimit : Nat := 4300

/-- A run of `count` digits was refused. -/
structure NumberTooLong where
  count : Nat
  deriving DecidableEq, Repr

/-- What is reported about a run of digits that is too long. -/
def NumberTooLong.message (failure : NumberTooLong) : Text :=
  "Exceeds the limit (4300 digits) for integer string conversion: value has ".toList ++
    decimal failure.count ++
    " digits; use sys.set_int_max_str_digits() to increase the limit".toList

/-- The number denoted by a run of digits, leading zeros included in its length. -/
def readNumber (digits : Text) : Except NumberTooLong Nat :=
  if digitLimit < digits.length then .error ⟨digits.length⟩ else .ok (digitsValue digits)

end HeaderBook.Text
