import HeaderBook.FileName

/-!
# Walking along paths

`walk` follows a path name by name as the file system does: through directories,
up at `..`, and through links, of which at most `linkLimit` are followed. A walk
ends at an entry or at a place in a directory where an entry could be made. Names
of more than `nameLimit` bytes and paths of `pathLimit` bytes or more are refused.

`resolve` makes a path absolute and free of links. Names that lead nowhere are
kept, and `..` after them goes back by one name.
-/

namespace HeaderBook

namespace FileTree

/-- What the file system objects to. -/
inductive Fault where
  | notFound
  | alreadyExists
  | notDirectory
  | isDirectory
  | nameTooLong
  | tooManyLinks
  deriving DecidableEq, Repr

/-- The number of a fault. -/
def Fault.number : Fault → Nat
  | .notFound => 2
  | .alreadyExists => 17
  | .notDirectory => 20
  | .isDirectory => 21
  | .nameTooLong => 36
  | .tooManyLinks => 40

/-- The words for a fault. -/
def Fault.words : Fault → Text
  | .notFound => "No such file or directory".toList
  | .alreadyExists => "File exists".toList
  | .notDirectory => "Not a directory".toList
  | .isDirectory => "Is a directory".toList
  | .nameTooLong => "File name too long".toList
  | .tooManyLinks => "Too many levels of symbolic links".toList

/-- Why an operation on files failed. -/
inductive Failure where
  /-- The file system objected to a path. -/
  | fault (objection : Fault) (path : Path)
  /-- A path runs into links that lead back to themselves. -/
  | linkLoop (path : Path)
  /-- A path holds surrogates that stand for no byte. -/
  | surrogates (failure : Encoding.EncodeFailure)
  /-- A path holds the null character. -/
  | nullCharacter
  /-- A path starts at a home directory that is not known. -/
  | homeUnknown
  deriving DecidableEq, Repr

/-- A failure as it is reported. -/
def Failure.message : Failure → Text
  | .fault objection path =>
    "[Errno ".toList ++ Text.decimal objection.number ++ "] ".toList ++ objection.words ++
      ": ".toList ++ Text.quoted path.text
  | .linkLoop path => "Symlink loop from ".toList ++ Text.quoted path.text
  | .surrogates failure => failure.message
  | .nullCharacter => "embedded null byte".toList
  | .homeUnknown => "Could not determine home directory.".toList

/-- Why a path cannot be handed over to the file system at all. -/
def refusal? (path : Path) : Option Failure :=
  match FileName.failure? path.text with
  | some failure => some (.surrogates failure)
  | none => if path.text.contains '\x00' then some .nullCharacter else none

/-- Where a walk ends. -/
inductive Arrival where
  /-- At an entry. -/
  | entry (location : Location) (entry : Entry)
  /-- In a directory that has nothing under a name. -/
  | vacant (directory : Location) (name : CodeText)

/-- What a walk is for, which decides how it ends. -/
inductive Purpose where
  /-- To find what stands at the path itself, be it a link. -/
  | entry
  /-- To find what the path leads to, links followed. -/
  | target
  /-- To find a file to write, links followed. The file may be missing. A slash
  after the last name stands for a directory, which is no file. -/
  | writing
  deriving DecidableEq, Repr

/-- The number of links that a walk may follow. -/
def linkLimit : Nat := 40

/-- A name takes at most this number of bytes. -/
def nameLimit : Nat := 255

/-- A path takes fewer bytes than this. -/
def pathLimit : Nat := 4096

/-- The names of a link's target, and whether they start at the root. -/
def targetNames (target : Text) : Bool × List CodeText :=
  (target.head? = some '/', Text.split Path.slash (CodeText.ofText target))

/-- Walks along `names`, which are in stored form, from the directory `here`. Where a
link has to be followed, `follow` walks on from where its target starts, along the names
of the target and those that are left. -/
def walkAlong (tree : FileTree) (purpose : Purpose)
    (follow : Location → List CodeText → Except Fault Arrival) (here : Location) :
    List CodeText → Except Fault Arrival
  | [] =>
    match tree.get? here with
    | some entry => .ok (.entry here entry)
    | none => .error .notFound
  | name :: rest =>
    if name = [] ∨ name = Path.here then walkAlong tree purpose follow here rest
    else if name = Path.above then walkAlong tree purpose follow here.dropLast rest
    else if purpose = .writing ∧ rest ≠ [] ∧ rest.all List.isEmpty then .error .isDirectory
    else if nameLimit < FileName.size name then .error .nameTooLong
    else
      match tree.get? (here ++ [name]) with
      | none => if rest.isEmpty then .ok (.vacant here name) else .error .notFound
      | some (.directory _) => walkAlong tree purpose follow (here ++ [name]) rest
      | some (.file content) =>
        if rest.isEmpty then .ok (.entry (here ++ [name]) (.file content)) else .error .notDirectory
      | some (.link target) =>
        if rest.isEmpty ∧ purpose = .entry then .ok (.entry (here ++ [name]) (.link target))
        else
          let (fromRoot, further) := targetNames target
          follow (if fromRoot then [] else here) (further ++ rest)

/-- Walks along names, following at most `links` links. -/
def walkFrom (tree : FileTree) (purpose : Purpose) :
    Nat → Location → List CodeText → Except Fault Arrival
  | 0 => walkAlong tree purpose fun _ _ => .error .tooManyLinks
  | links + 1 => walkAlong tree purpose (walkFrom tree purpose links)

end FileTree

/-- A file tree seen from a current directory. -/
structure Directory where
  tree : FileTree
  /-- The current directory, reached without links. -/
  current : Location

namespace Directory

open FileTree (Arrival Failure Fault Purpose)

/-- The location at which walks along a path begin. -/
def origin (here : Directory) (path : Path) : Location :=
  if path.anchor = .relative then here.current else []

/-- Walks along a path. -/
def walk (here : Directory) (purpose : Purpose) (path : Path) : Except Fault Arrival :=
  if FileTree.pathLimit ≤ FileName.size path.text then .error .nameTooLong
  else here.tree.walkFrom purpose FileTree.linkLimit (here.origin path) path.location

/-- The entry that a path leads to, if it leads to one. Of all objections to the
path, only that to its length or to that of a name is a failure. -/
def find (here : Directory) (path : Path) : Except Failure (Option Entry) :=
  match FileTree.refusal? path, here.walk .target path with
  | some _, _ => .ok none
  | none, .ok (.entry _ entry) => .ok (some entry)
  | none, .error .nameTooLong => .error (.fault .nameTooLong path)
  | none, _ => .ok none

/-- Whether a path leads to a regular file. -/
def isFile (here : Directory) (path : Path) : Except Failure Bool := do
  match ← here.find path with
  | some (.file _) => return true
  | _ => return false

/-- Whether a path leads to a directory. -/
def isDirectory (here : Directory) (path : Path) : Except Failure Bool := do
  return (← here.find path).any Entry.isDirectory

/-- Goes on by names without looking at entries. -/
def goOn (here : Location) (names : List CodeText) : Location :=
  names.foldl
    (fun here name =>
      if name = [] ∨ name = Path.here then here
      else if name = Path.above then here.dropLast
      else here ++ [name])
    here

/-- A path from the root directory with every `..` taken as one name back,
without regard to links. -/
def absolute (here : Directory) (path : Path) : Path :=
  if path.anchor = .relative then ⟨.root, goOn here.current path.names⟩
  else ⟨path.anchor, goOn [] path.names⟩

/-- What is left to do when a path is resolved. -/
inductive Step where
  /-- Go on by a name. -/
  | name (given : CodeText)
  /-- The link met at a path has been followed to its end. -/
  | followed (link : Path)
  deriving DecidableEq, Repr

/-- One name back from a path free of links. -/
def up (path : Path) : Path :=
  if path.anchor = .relative ∧ (path.names.getLast?.getD Path.above) = Path.above then
    path.entry Path.above
  else path.parent

/-- Goes on from a path by all that is left to do, without looking at entries.
`names` holds the names since the end of the last link, the latest first; where
they begin with a slash, they start anew at the root. -/
def giveUp (path : Path) (names : List CodeText) : List Step → Path
  | [] => path.child (Text.join [Path.slash] names.reverse)
  | .name given :: rest => giveUp path (given :: names) rest
  | .followed _ :: rest => giveUp (path.child (Text.join [Path.slash] names.reverse)) [] rest

/-- The links met so far by the paths that led to them, each with the place it leads to
once that is known. -/
abbrev KnownLinks := List (Path × Option Path)

/-- Takes steps from `path`, which is free of links. A link met again before its place is
known ends the search, and the rest of the path is kept as it is. Where a link is met for
the first time, `follow` goes on from where its target starts; where none may be followed
any more, the search ends. -/
def resolveAlong (here : Directory)
    (follow : Option (KnownLinks → Path → List Step → Except Failure Path))
    (known : KnownLinks) (path : Path) : List Step → Except Failure Path
  | [] => .ok path
  | .followed link :: rest => resolveAlong here follow ((link, some path) :: known) path rest
  | .name name :: rest =>
    if name = [] ∨ name = Path.here then resolveAlong here follow known path rest
    else if name = Path.above then resolveAlong here follow known (up path) rest
    else
      let next := path.entry name
      match FileTree.refusal? next, here.walk .entry next with
      | some failure, _ => .error failure
      | none, .ok (.entry _ (.link target)) =>
        match known.lookup next with
        | some (some place) => resolveAlong here follow known place rest
        | some none => .ok (giveUp next [] rest)
        | none =>
          match follow with
          | none => .ok (giveUp next [] rest)
          | some follow =>
            let (fromRoot, further) := FileTree.targetNames target
            follow ((next, none) :: known) (if fromRoot then ⟨.root, []⟩ else path)
              (further.map .name ++ .followed next :: rest)
      | none, _ => resolveAlong here follow known next rest

/-- Takes steps from a path, following at most `links` links. -/
def resolveFrom (here : Directory) :
    Nat → KnownLinks → Path → List Step → Except Failure Path
  | 0 => resolveAlong here none
  | links + 1 => resolveAlong here (some (resolveFrom here links))

/-- The absolute, link-free form of a path. -/
def resolve (here : Directory) (path : Path) : Except Failure Path := do
  let start : Path := ⟨if path.anchor = .relative then .relative else .root, []⟩
  let links := here.tree.all.length * FileTree.pathLimit
  let resolved := here.absolute (← here.resolveFrom links [] start (path.names.map .name))
  match FileTree.refusal? resolved, here.walk .target resolved with
  | some failure, _ => throw failure
  | none, .error .tooManyLinks => throw (.linkLoop resolved)
  | none, _ => return resolved

end Directory
end HeaderBook
