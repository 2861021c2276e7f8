import HeaderBook.Text.Digit

/-!
# Shortest decimals

A double-precision number is written with the fewest decimal digits that read
back as the same number, and of those the nearest to it. The number is taken
apart into an integer times a power of two, and the reals that round to it form
an interval whose ends belong to it exactly when that integer is even. All
comparisons are made between natural numbers.
-/

namespace HeaderBook.Text

/-- A positive binary fraction and the interval of reals that round to it: the
value is `value / denominator`, and so for the ends of the interval. -/
structure Rounding where
  low : Nat
  value : Nat
  high : Nat
  denominator : Nat
  /-- The ends round to the value as well. -/
  closed : Bool

/-- The rounding interval of `mantissa * 2 ^ exponent`. At a power of two the
next smaller number is nearer, unless the numbers are already spaced most
closely, as `lowest` tells. -/
def Rounding.ofBinary (mantissa : Nat) (exponent : Int) (lowest : Bool) : Rounding :=
  let up := Nat.pow 2 exponent.toNat
  let down := Nat.pow 2 (-exponent).toNat
  let below := if mantissa = Nat.pow 2 52 && !lowest then 1 else 2
  { low := (4 * mantissa - below) * up
    value := 4 * mantissa * up
    high := (4 * mantissa + 2) * up
    denominator := 4 * down
    closed := mantissa % 2 = 0 }

/-- `rounding.admits digits power` holds when `digits * 10 ^ power` rounds to
the value. -/
def Rounding.admits (rounding : Rounding) (digits : Nat) (power : Int) : Bool :=
  let candidate := digits * Nat.pow 10 power.toNat * rounding.denominator
  let scale := Nat.pow 10 (-power).toNat
  if rounding.closed then rounding.low * scale ≤ candidate && candidate ≤ rounding.high * scale
  else rounding.low * scale < candidate && candidate < rounding.high * scale

/-- The number of zeros that follow the point in a fraction below one, counted
up to `fuel`. -/
def leadingZeros (numerator denominator : Nat) : Nat → Nat
  | 0 => 0
  | fuel + 1 =>
    if denominator ≤ 10 * numerator then 0
    else leadingZeros (10 * numerator) denominator fuel + 1

/-- The place of the decimal point: the least `k` with the value below `10 ^ k`. -/
def Rounding.pointPlace (rounding : Rounding) : Int :=
  if rounding.denominator ≤ rounding.value then
    (decimal (rounding.value / rounding.denominator)).length
  else
    -(leadingZeros rounding.value rounding.denominator 400 : Nat)

/-- The two neighbours of the value on the grid of multiples of `10 ^ power`,
reduced to the one that rounds to the value, the nearer if both do. -/
def Rounding.onGrid? (rounding : Rounding) (power : Int) : Option Nat :=
  let numerator := rounding.value * Nat.pow 10 (-power).toNat
  let unit := rounding.denominator * Nat.pow 10 power.toNat
  let below := numerator / unit
  match rounding.admits below power && below ≠ 0, rounding.admits (below + 1) power with
  | true, true =>
    let past := numerator % unit
    if 2 * past < unit || (2 * past = unit && below % 2 = 0) then some below else some (below + 1)
  | true, false => some below
  | false, true => some (below + 1)
  | false, false => none

/-- The first grid, of `count` digits or more, that holds an admitted number: its
digits and the power of ten of the last of them. -/
def Rounding.search (rounding : Rounding) (place : Int) (count : Nat) : Nat → Nat × Int
  | 0 => (rounding.value / rounding.denominator, 0)
  | fuel + 1 =>
    let power := place - count
    match rounding.onGrid? power with
    | some digits => (digits, power)
    | none => rounding.search place (count + 1) fuel

/-- A finite number as sign, digits without zeros at the end, and the place of
the point: the value is `0.digits * 10 ^ place`. -/
structure ShortestDecimal where
  negative : Bool
  digits : Text
  place : Int
  deriving DecidableEq, Repr

/-- How a number of one of the three kinds is written in decimal. -/
inductive DecimalForm where
  | finite (form : ShortestDecimal)
  | infinite (negative : Bool)
  | notANumber
  deriving DecidableEq, Repr

/-- The shortest decimal of the double with the given bits. -/
def DecimalForm.ofBits (bits : UInt64) : DecimalForm :=
  let bits := bits.toNat
  let negative : Bool := Nat.pow 2 63 ≤ bits
  let exponent := bits / Nat.pow 2 52 % Nat.pow 2 11
  let fraction := bits % Nat.pow 2 52
  if exponent = Nat.pow 2 11 - 1 then
    if fraction = 0 then .infinite negative else .notANumber
  else if exponent = 0 && fraction = 0 then
    .finite ⟨negative, ['0'], 1⟩
  else
    let mantissa := if exponent = 0 then fraction else fraction + Nat.pow 2 52
    let power : Int := (max exponent 1 : Nat) - 1075
    let rounding := Rounding.ofBinary mantissa power (exponent ≤ 1)
    let (digits, last) := rounding.search rounding.pointPlace 1 17
    let shown := decimal digits
    .finite ⟨negative, trimEnd (· = '0') shown, shown.length + last⟩

/-- How shortest decimals are laid out. -/
structure DecimalLayout where
  /-- The places of the point for which no exponent is written. -/
  firstPositional : Int
  lastPositional : Int
  /-- The least number of digits of an exponent. -/
  exponentDigits : Nat

/-- Zeros. -/
def zeros (count : Nat) : Text :=
  List.replicate count '0'

/-- Writes a finite number. Without an exponent there is always a digit on both
sides of the point. -/
def DecimalLayout.render (layout : DecimalLayout) (form : ShortestDecimal) : Text :=
  let sign : Text := if form.negative then ['-'] else []
  let length : Int := form.digits.length
  if layout.firstPositional ≤ form.place ∧ form.place ≤ layout.lastPositional then
    if form.place ≤ 0 then
      sign ++ ['0', '.'] ++ zeros (-form.place).toNat ++ form.digits
    else if length ≤ form.place then
      sign ++ form.digits ++ zeros (form.place - length).toNat ++ ['.', '0']
    else
      sign ++ form.digits.take form.place.toNat ++ ['.'] ++ form.digits.drop form.place.toNat
  else
    let exponent := form.place - 1
    let size := decimal exponent.natAbs
    let mantissa := match form.digits with
      | first :: second :: rest => first :: '.' :: second :: rest
      | digits => digits
    sign ++ mantissa ++ ['e', if exponent < 0 then '-' else '+'] ++
      zeros (layout.exponentDigits - size.length) ++ size

end HeaderBook.Text
