import HeaderBook.Text.Digit

/-!
# Failures of reading YAML

Text that is not YAML is malformed. A scalar can also be well formed and still denote
nothing: a number of too many digits or places, a day that no calendar has, a code
point beyond the last. A reader may meet other failures of its own.
-/

namespace HeaderBook.Yaml

/-- Why a text could not be read. -/
inductive Failure where
  | malformed (reason : Text)
  /-- A decimal integer has too many digits. -/
  | number (failure : Text.NumberTooLong)
  /-- An integer of this base has no digit at all. -/
  | noDigits (base : Nat)
  /-- The weight of a place of a sexagesimal fraction is beyond all doubles. -/
  | weight
  /-- An escape denotes no character. -/
  | codePoint
  /-- An escape denotes a number of more than thirty-one bits. -/
  | codeSize
  /-- A date or a time of day does not exist. -/
  | timestamp (reason : Text)
  /-- An objection to the characters of a scalar. -/
  | characters (reason : Text)
  /-- Any other failure to make a value. -/
  | other (reason : Text)
  deriving DecidableEq, Repr

/-- A failure as it is reported. -/
def Failure.message : Failure → Text
  | .malformed reason => reason
  | .number failure => failure.message
  | .noDigits base =>
    "invalid literal for int() with base ".toList ++ Text.decimal base ++ ": ''".toList
  | .weight => "int too large to convert to float".toList
  | .codeSize => "Python int too large to convert to C int".toList
  | .codePoint => "chr() arg not in range(0x110000)".toList
  | .timestamp reason | .characters reason | .other reason => reason

/-- A malformed text. -/
def malformed {α : Type} (reason : String) : Except Failure α :=
  .error (.malformed reason.toList)

end HeaderBook.Yaml
