import HeaderBook.Yaml.Failure

/-!
# Timestamps

A plain scalar that has the form of a date, with or without a time of day, is a
timestamp. Settings use none, but a date that does not exist is refused.
-/

namespace HeaderBook.Yaml

open Text (digitsValue decimal signedDecimal)

/-- The parts of a timestamp. -/
structure Timestamp where
  year : Nat
  month : Nat
  day : Nat
  /-- Hour, minute and second. -/
  time : Option (Nat × Nat × Nat) := none
  /-- The offset from universal time in minutes. -/
  offset : Int := 0
  deriving DecidableEq, Repr

namespace Timestamp

/-- Takes between `least` and `most` digits from the beginning of a text. -/
def number? (least most : Nat) (text : Text) : Option (Nat × Text) :=
  let digits := (text.take most).takeWhile Char.isDigit
  if digits.length < least then none else some (digitsValue digits, text.drop digits.length)

/-- Takes a character from the beginning of a text. -/
def mark? (c : Char) : Text → Option Text
  | first :: rest => if first = c then some rest else none
  | [] => none

/-- The minutes of an offset: a sign, an hour, and perhaps a minute. -/
def offset? (text : Text) : Option Int := do
  let (sign, rest) ← match text with
    | '+' :: rest => some ((1 : Int), rest)
    | '-' :: rest => some ((-1 : Int), rest)
    | _ => none
  let (hour, rest) ← number? 1 2 rest
  match rest with
  | [] => return sign * (60 * hour)
  | ':' :: rest =>
    let (minute, rest) ← number? 2 2 rest
    if rest.isEmpty then return sign * (60 * hour + minute) else none
  | _ => none

/-- Blanks between the parts of a timestamp. -/
def isSpacing (c : Char) : Bool :=
  c = ' ' || c = '\t'

/-- The zone at the end of a timestamp; nothing, a `Z` and an offset are zones. -/
def zone? (text : Text) : Option Int :=
  match text, text.dropWhile isSpacing with
  | [], _ => some 0
  | _, ['Z'] => some 0
  | _, rest => offset? rest

/-- What follows the date in a timestamp with a time of day. -/
def time? (text : Text) : Option ((Nat × Nat × Nat) × Int) := do
  let rest ← match text with
    | 'T' :: rest | 't' :: rest => some rest
    | c :: rest => if isSpacing c then some (rest.dropWhile isSpacing) else none
    | [] => none
  let (hour, rest) ← number? 1 2 rest
  let (minute, rest) ← number? 2 2 (← mark? ':' rest)
  let (second, rest) ← number? 2 2 (← mark? ':' rest)
  let rest := match rest with
    | '.' :: fraction => fraction.dropWhile Char.isDigit
    | _ => rest
  return ((hour, minute, second), ← zone? rest)

/-- Reads a timestamp. A date alone has two digits for month and day; before a
time of day one digit is enough. -/
def ofText? (text : Text) : Option Timestamp := do
  let (year, rest) ← number? 4 4 text
  let (month, afterMonth) ← number? 1 2 (← mark? '-' rest)
  let (day, afterDay) ← number? 1 2 (← mark? '-' afterMonth)
  if afterDay.isEmpty then
    if text.length = 10 then return { year, month, day } else none
  else
    let (time, offset) ← time? afterDay
    return { year, month, day, time := some time, offset }

/-- `isLeap year` holds in years with a twenty-ninth of February. -/
def isLeap (year : Nat) : Bool :=
  year % 4 = 0 && (year % 100 ≠ 0 || year % 400 = 0)

/-- The number of days of a month. -/
def daysIn (year month : Nat) : Nat :=
  if month = 2 then (if isLeap year then 29 else 28)
  else if [4, 6, 9, 11].contains month then 30
  else 31

/-- A span of minutes as days and the seconds beyond them. -/
def span (minutes : Int) : Text :=
  let days := minutes.fdiv 1440
  let seconds := 60 * minutes.fmod 1440
  let parts :=
    (if days = 0 then [] else ["days=".toList ++ signedDecimal days]) ++
      (if seconds = 0 then [] else ["seconds=".toList ++ signedDecimal seconds])
  "datetime.timedelta(".toList ++ Text.join ", ".toList parts ++ [')']

/-- What is wrong with a timestamp, if anything is. The zone is looked at first. -/
def fault? (stamp : Timestamp) : Option Text :=
  let because (reason : String) : Option Text := some reason.toList
  if 1440 ≤ stamp.offset.natAbs then
    some ("offset must be a timedelta strictly between -timedelta(hours=24) and ".toList ++
      "timedelta(hours=24), not ".toList ++ span stamp.offset ++ ['.'])
  else if stamp.year = 0 then because "year 0 is out of range"
  else if stamp.month = 0 || 12 < stamp.month then because "month must be in 1..12"
  else if stamp.day = 0 || daysIn stamp.year stamp.month < stamp.day then
    because "day is out of range for month"
  else
    match stamp.time with
    | none => none
    | some (hour, minute, second) =>
      if 23 < hour then because "hour must be in 0..23"
      else if 59 < minute then because "minute must be in 0..59"
      else if 59 < second then because "second must be in 0..59"
      else none

end Timestamp
end HeaderBook.Yaml
