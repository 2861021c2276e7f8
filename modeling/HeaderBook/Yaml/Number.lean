import HeaderBook.Yaml.Failure
import HeaderBook.Yaml.Quoted

/-!
# Numbers

Which plain scalars are numbers, and which number each is. Integers may be
binary, octal (a zero in front), decimal, hexadecimal or sexagesimal; decimal
fractions need a point and, before an exponent, a sign. Low lines between digits
do not count.
-/

namespace HeaderBook.Yaml

open Text (digitsValue)

/-- Takes the sign off a number. -/
def splitSign : Text → Bool × Text
  | '-' :: rest => (true, rest)
  | '+' :: rest => (false, rest)
  | text => (false, text)

/-- A digit, or a low line, which does not count. -/
def isDigitOrLine (c : Char) : Bool :=
  c.isDigit || c = '_'

/-- The characters that count. -/
def counted (text : Text) : Text :=
  text.filter (· ≠ '_')

/-- A place of a sexagesimal number after the first: below sixty, in one or two
digits. -/
def isSixtieth : Text → Bool
  | [unit] => unit.isDigit
  | [ten, unit] => '0' ≤ ten && ten ≤ '5' && unit.isDigit
  | _ => false

/-- The places of a sexagesimal number whose first satisfies `first`. -/
def sixtieths? (first : Text → Bool) (text : Text) : Option (List Text) :=
  match Text.split ':' text with
  | head :: second :: rest =>
    if first head && (second :: rest).all isSixtieth then some (head :: second :: rest) else none
  | _ => none

/-- The value of a run of digits in a base that is a power of two. -/
def valueInBase (base : Nat) (digits : Text) : Except Failure Nat :=
  let digits := counted digits
  if digits.isEmpty then .error (.noDigits base)
  else .ok (digits.foldl (fun value c => base * value + (hexDigit? c).getD 0) 0)

/-- The value of a run of decimal digits. -/
def decimalValue (digits : Text) : Except Failure Nat :=
  (Text.readNumber (counted digits)).mapError .number

/-- A decimal integer begins with a digit other than zero. -/
def beginsDecimal : Text → Bool
  | c :: rest => '1' ≤ c && c ≤ '9' && rest.all isDigitOrLine
  | [] => false

/-- The natural number that a text without sign denotes, if it denotes one. -/
def natural? (text : Text) : Option (Except Failure Nat) :=
  let binary (c : Char) : Bool := c = '0' || c = '1' || c = '_'
  let octal (c : Char) : Bool := ('0' ≤ c && c ≤ '7') || c = '_'
  let hexadecimal (c : Char) : Bool := (hexDigit? c).isSome || c = '_'
  match text with
  | '0' :: 'b' :: digits =>
    if !digits.isEmpty && digits.all binary then some (valueInBase 2 digits) else none
  | '0' :: 'x' :: digits =>
    if !digits.isEmpty && digits.all hexadecimal then some (valueInBase 16 digits) else none
  | '0' :: digits => if digits.all octal then some (valueInBase 8 text) else none
  | _ =>
    if beginsDecimal text then some (decimalValue text)
    else
      (sixtieths? beginsDecimal text).map fun places => do
        let values ← places.mapM decimalValue
        return values.foldl (fun total value => 60 * total + value) 0

/-- The integer that a plain scalar denotes, if it denotes one. -/
def integer? (text : Text) : Option (Except Failure Int) :=
  let (negative, digits) := splitSign text
  (natural? digits).map fun result =>
    result.map fun value => if negative then -(value : Int) else (value : Int)

/-- The double nearest to `mantissa * 10 ^ exponent`. Exponents beyond the range
of doubles are settled without computing the power. -/
def nearestDouble (mantissa : Nat) (exponent : Int) : Float :=
  let size := (Text.decimal mantissa).length + exponent
  if mantissa = 0 || size < -330 then 0.0
  else if 310 < size then 1.0 / 0.0
  else if exponent < 0 then Float.ofScientific mantissa true (-exponent).toNat
  else Float.ofScientific mantissa false exponent.toNat

/-- The exponent at the end of a fraction: nothing, or a letter, a sign and
digits. -/
def exponent? : Text → Option Int
  | [] => some 0
  | c :: sign :: digits =>
    if (c = 'e' || c = 'E') && !digits.isEmpty && digits.all Char.isDigit then
      if sign = '+' then some (digitsValue digits)
      else if sign = '-' then some (-(digitsValue digits : Int))
      else none
    else none
  | _ => none

/-- The value of digits, a point, digits and an exponent. -/
def fractionValue (whole part : Text) (exponent : Int) : Float :=
  let part := counted part
  nearestDouble (digitsValue (counted whole ++ part)) (exponent - part.length)

/-- Digits from the beginning of a text through the low lines among them, and
what follows. -/
def splitDigits (text : Text) : Text × Text :=
  (text.takeWhile isDigitOrLine, text.dropWhile isDigitOrLine)

/-- A fraction with digits in front of its point. -/
def pointed? (text : Text) : Option Float :=
  match text.head?, splitDigits text with
  | some first, (whole, '.' :: rest) =>
    if first.isDigit then
      let (part, rest) := splitDigits rest
      (exponent? rest).map (fractionValue whole part)
    else none
  | _, _ => none

/-- Adds up the places of a sexagesimal fraction, the last first, from a total.
The weight of the first of `places` is an integer and is rounded to a double. -/
def sixtiethsTotal (weight : Nat) (total : Float) (places : List Float) : Except Failure Float :=
  match places with
  | [] => .ok total
  | place :: rest =>
    let factor := nearestDouble weight 0
    if factor.isInf then .error .weight
    else sixtiethsTotal (60 * weight) (total + place * factor) rest

/-- A sexagesimal number whose last place has a fraction. -/
def sixtiethsFraction? (text : Text) : Option (Except Failure Float) :=
  let whole := text.takeWhile (· ≠ '.')
  match text.dropWhile (· ≠ '.') with
  | '.' :: part =>
    let beginsDigits (head : Text) : Bool :=
      head.head?.any Char.isDigit && head.all isDigitOrLine
    if part.all isDigitOrLine then
      (sixtieths? beginsDigits whole).map fun places =>
        let others := places.dropLast.map fun place => fractionValue place [] 0
        sixtiethsTotal 1 0.0 (fractionValue (places.getLastD []) part 0 :: others.reverse)
    else none
  | _ => none

/-- The fraction that a plain scalar denotes, if it denotes one. -/
def fraction? (text : Text) : Option (Except Failure Float) :=
  let (negative, body) := splitSign text
  let signed (value : Float) : Float := if negative then -1.0 * value else value
  let unsigned? : Option Float :=
    match text with
    | '.' :: digits =>
      if digits.head?.any Char.isDigit then
        let (part, rest) := splitDigits digits
        (exponent? rest).map (fractionValue [] part)
      else if [".nan", ".NaN", ".NAN"].contains (String.ofList text) then some (0.0 / 0.0)
      else none
    | _ => none
  if let some value := unsigned? then some (.ok value)
  else if [".inf", ".Inf", ".INF"].contains (String.ofList body) then
    some (.ok (signed (1.0 / 0.0)))
  else (((pointed? body).map Except.ok).or (sixtiethsFraction? body)).map (·.map signed)

end HeaderBook.Yaml
