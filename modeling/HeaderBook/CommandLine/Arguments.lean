import HeaderBook.Text.Digit
import HeaderBook.Text.Quoted

/-!
# Arguments

The words of a command line are switches, operands, and the divider `--`, after
which every word is an operand. A long switch may be shortened as long as no other
switch begins the same way, and takes its value after `=` or as the next word.
Short switches without values may be written together. A negative number, a single
dash, and a word with a space are operands in spite of their dash.

There is one operand, the output directory. Words are considered from left to
right, and the last of several values for a switch counts. Two dashes after `=` are
a divider even there, so that the switch is given without a value.
-/

namespace HeaderBook.CommandLine

/-- A switch of the command line. -/
inductive Switch where
  | help
  | verbose
  | logFile
  | root
  | config
  | restoring
  deriving DecidableEq, Repr

namespace Switch

/-- All switches. -/
def all : List Switch := [.help, .verbose, .logFile, .root, .config, .restoring]

/-- The ways to write a switch. -/
def spellings : Switch → List Text
  | .help => ["-h".toList, "--help".toList]
  | .verbose => ["-v".toList, "--verbose".toList]
  | .logFile => ["--log-file".toList]
  | .root => ["--root".toList]
  | .config => ["--config".toList]
  | .restoring => ["--resolve-markers".toList]

/-- A switch with all its spellings, as complaints name it. -/
def label (switch : Switch) : Text :=
  Text.join ['/'] switch.spellings

/-- The switches that need a value. -/
def takesValue : Switch → Bool
  | .logFile | .root | .config => true
  | .help | .verbose | .restoring => false

/-- The spellings of all switches. -/
def allSpellings : List (Switch × Text) :=
  all.flatMap fun switch => switch.spellings.map (switch, ·)

/-- The switch with a given spelling. -/
def spelled? (text : Text) : Option Switch :=
  all.find? (·.spellings.contains text)

end Switch

/-- Why the words of a command line make no sense. -/
inductive UsageError where
  /-- A shortened switch could be any of several. -/
  | ambiguous (word : Text) (candidates : List Text)
  /-- A switch lacks its value. -/
  | valueMissing (switch : Switch)
  /-- A switch that takes no value has one. -/
  | unwantedValue (switch : Switch) (value : Text)
  | outputMissing
  | unrecognized (words : List Text)
  deriving DecidableEq, Repr

/-- An error as it is reported. -/
def UsageError.message : UsageError → Text
  | .ambiguous word candidates =>
    "ambiguous option: ".toList ++ word ++ " could match ".toList ++
      Text.join ", ".toList candidates
  | .valueMissing switch =>
    "argument ".toList ++ switch.label ++ ": expected one argument".toList
  | .unwantedValue switch value =>
    "argument ".toList ++ switch.label ++ ": ignored explicit argument ".toList ++
      Text.quoted (CodeText.ofText value)
  | .outputMissing => "the following arguments are required: output_dir".toList
  | .unrecognized words => "unrecognized arguments: ".toList ++ Text.join [' '] words

/-- A word of the command line by its kind. -/
inductive Word where
  | operand (text : Text)
  /-- The word after which all words are operands. -/
  | divider
  /-- A switch, whether it was written with a single dash, and what is attached
  to it. -/
  | switch (which : Switch) (short : Bool) (attached : Option Text)
  /-- A word that looks like a switch and is none. -/
  | stranger (text : Text)
  deriving DecidableEq, Repr

/-- The parts of a word before and after its first equals sign. -/
def splitAtEquals (word : Text) : Text × Option Text :=
  match word.dropWhile (· ≠ '=') with
  | [] => (word, none)
  | _ :: value => (word.takeWhile (· ≠ '='), some value)

/-- A spelling with a single dash. -/
def isShort : Text → Bool
  | '-' :: '-' :: _ => false
  | _ => true

/-- A dash with digits after it, among which may be one point that is not the
last of them. A line break may follow. -/
def isNegativeNumber (word : Text) : Bool :=
  match word with
  | '-' :: number =>
    let number := if number.getLast? = some '\n' then number.dropLast else number
    match number.dropWhile Text.isDigit with
    | [] => !number.isEmpty
    | '.' :: fraction => !fraction.isEmpty && fraction.all Text.isDigit
    | _ => false
  | _ => false

/-- The switches that a word beginning with a dash may stand for, each with the
spelling meant and what is attached to it. A single dash makes the next letter a
switch and attaches the rest; two dashes begin a spelling, which need not be
complete. -/
def readings : Text → List (Switch × Text × Option Text)
  | '-' :: '-' :: rest =>
    let (start, value) := splitAtEquals ('-' :: '-' :: rest)
    Switch.allSpellings.filterMap fun (switch, spelling) =>
      if start.isPrefixOf spelling then some (switch, spelling, value) else none
  | '-' :: letter :: rest =>
    Switch.allSpellings.filterMap fun (switch, spelling) =>
      if spelling = ['-', letter] then some (switch, spelling, some rest) else none
  | _ => []

/-- The kind of a word before any divider. -/
def Word.classify (word : Text) : Except UsageError Word :=
  let (start, value) := splitAtEquals word
  if word.head? ≠ some '-' || word.length = 1 then .ok (.operand word)
  else
    match Switch.spelled? word, value, Switch.spelled? start with
    | some which, _, _ => .ok (.switch which (isShort word) none)
    | none, some value, some which => .ok (.switch which (isShort word) (some value))
    | none, _, _ =>
      match readings word with
      | [(which, spelling, attached)] => .ok (.switch which (isShort spelling) attached)
      | [] =>
        if isNegativeNumber word || word.contains ' ' then .ok (.operand word)
        else .ok (.stranger word)
      | candidates => .error (.ambiguous word (candidates.map (·.2.1)))

/-- The words of a command line by their kinds. -/
def classifyAll : List Text → Except UsageError (List Word)
  | [] => .ok []
  | word :: rest => do
    if word = "--".toList then
      return .divider :: rest.map .operand
    return (← Word.classify word) :: (← classifyAll rest)

/-- What a switch that needs a value is given. -/
inductive Given where
  | value (text : Text)
  /-- A divider in place of a value. -/
  | nothing
  deriving DecidableEq, Repr

/-- What is given by the text after a switch's equals sign. -/
def Given.ofAttached (text : Text) : Given :=
  if text = "--".toList then .nothing else .value text

/-- What the words of a command line ask for. -/
structure Arguments where
  output : Text
  verbose : Bool := false
  logFile : Option Given := none
  root : Given := .value ".".toList
  config : Option Given := none
  restoring : Bool := false
  deriving DecidableEq, Repr

/-- What the words considered so far ask for. -/
structure Draft where
  output : Option Text := none
  verbose : Bool := false
  logFile : Option Given := none
  root : Given := .value ".".toList
  config : Option Given := none
  restoring : Bool := false
  /-- Words that are left over. -/
  unrecognized : List Text := []
  deriving DecidableEq, Repr

/-- What ends the consideration of words early. -/
inductive Interruption where
  /-- Help is asked for. -/
  | help
  | usage (error : UsageError)
  deriving DecidableEq, Repr

/-- Sets a switch that takes no value. -/
def Draft.turnOn (draft : Draft) : Switch → Except Interruption Draft
  | .help => .error .help
  | .verbose => .ok { draft with verbose := true }
  | .restoring => .ok { draft with restoring := true }
  | .logFile | .root | .config => .ok draft

/-- Gives a switch its value. -/
def Draft.assign (draft : Draft) (given : Given) : Switch → Draft
  | .logFile => { draft with logFile := some given }
  | .root => { draft with root := given }
  | .config => { draft with config := some given }
  | .help | .verbose | .restoring => draft

/-- Keeps a word that is left over. -/
def Draft.leaveOver (draft : Draft) (word : Text) : Draft :=
  { draft with unrecognized := draft.unrecognized ++ [word] }

/-- A switch and the short switches written together with it. -/
def cluster (switch : Switch) : Text → Except UsageError (List Switch)
  | [] => .ok [switch]
  | letter :: rest =>
    match Switch.spelled? ['-', letter] with
    | some next => do return switch :: (← cluster next rest)
    | none => .error (.unwantedValue switch (letter :: rest))

/-- The switches that a word turns on. -/
def turnedOn (switch : Switch) (short : Bool) : Option Text → Except UsageError (List Switch)
  | none => .ok [switch]
  | some attached =>
    if short && !attached.isEmpty then cluster switch attached
    else .error (.unwantedValue switch attached)

/-- Considers words from left to right. The first operand is the output
directory, together with the divider beside it. -/
def Draft.consider (draft : Draft) : List Word → Except Interruption Draft
  | [] => .ok draft
  | .operand text :: .divider :: rest =>
    match draft.output with
    | none => consider { draft with output := some text } rest
    | some _ => consider ((draft.leaveOver text).leaveOver "--".toList) rest
  | .operand text :: rest =>
    match draft.output with
    | none => consider { draft with output := some text } rest
    | some _ => consider (draft.leaveOver text) rest
  | .divider :: .operand text :: rest =>
    match draft.output with
    | none => consider { draft with output := some text } rest
    | some _ => consider ((draft.leaveOver "--".toList).leaveOver text) rest
  | .divider :: rest => consider (draft.leaveOver "--".toList) rest
  | .stranger text :: rest => consider (draft.leaveOver text) rest
  | .switch which short attached :: rest =>
    if which.takesValue then
      match attached, rest with
      | some text, rest => consider (draft.assign (.ofAttached text) which) rest
      | none, .operand text :: rest => consider (draft.assign (.value text) which) rest
      | none, _ => .error (.usage (.valueMissing which))
    else do
      let switches ← (turnedOn which short attached).mapError .usage
      consider (← switches.foldlM Draft.turnOn draft) rest

/-- The arguments of a complete draft. -/
def Draft.finish (draft : Draft) : Except UsageError Arguments :=
  match draft.output, draft.unrecognized with
  | none, _ => .error .outputMissing
  | some output, [] =>
    .ok {
      output
      verbose := draft.verbose
      logFile := draft.logFile
      root := draft.root
      config := draft.config
      restoring := draft.restoring }
  | some _, words => .error (.unrecognized words)

/-- What a command line asks for. -/
def Arguments.ofWords (words : List Text) : Except Interruption Arguments := do
  let draft ← ({} : Draft).consider (← (classifyAll words).mapError .usage)
  draft.finish.mapError .usage

end HeaderBook.CommandLine
