import HeaderBook.CodePoint

/-!
# Journal

A run reports what it does in records of rising level. Records below the
journal's threshold are dropped; the others go to the console and, if there is
one, to a log file. While a header is being processed its path stands in front of
every message.
-/

namespace HeaderBook

/-- How much a record matters. -/
inductive Level where
  | debug
  | info
  | warning
  | error
  | critical
  deriving DecidableEq, Repr

/-- The number of a level; a higher number matters more. -/
def Level.number : Level → Nat
  | .debug => 10
  | .info => 20
  | .warning => 30
  | .error => 40
  | .critical => 50

/-- The word for a level. -/
def Level.label : Level → Text
  | .debug => "DEBUG".toList
  | .info => "INFO".toList
  | .warning => "WARNING".toList
  | .error => "ERROR".toList
  | .critical => "CRITICAL".toList

/-- A message with its level and the full name of the part that sends it. -/
structure Record where
  level : Level
  sender : Text
  message : CodeText
  deriving DecidableEq, Repr

namespace Journal

/-- The name of the whole program in records. -/
def rootName : Text := "hdrdoc".toList

/-- The full name of a part of the program; the empty name stands for all of it. -/
def sender (part : Text) : Text :=
  if part.isEmpty then rootName else rootName ++ '.' :: part

/-- The path in front of a message; nothing outside headers. -/
def origin (current : CodeText) : CodeText :=
  if current.isEmpty then [] else current ++ codes ": "

/-- A record as a line on the console. -/
def consoleLine (current : CodeText) (record : Record) : CodeText :=
  CodeText.ofText ("[hdrdoc] ".toList ++ record.level.label ++ [' ']) ++ origin current ++
    record.message ++ codes "\n"

/-- A record as a line of a log file, with the time of the record in front. -/
def fileLine (time : Text) (current : CodeText) (record : Record) : CodeText :=
  CodeText.ofText (time ++ [' '] ++ record.level.label ++ [' '] ++ record.sender ++ [':', ' ']) ++
    origin current ++ record.message ++ codes "\n"

end Journal
end HeaderBook
