import HeaderBook.Encoding.Utf8
import HeaderBook.FileTree

/-!
# Names of files

A file system keeps names as bytes, which are read as UTF-8. Each byte that is no
part of a character is read as a surrogate of its own, and written back when a name
with that surrogate is handed over. Other surrogates are refused.

Surrogates that spell out the bytes of a character name the same file as the
character does. `stored` gives the form in which a listing shows a name.
-/

namespace HeaderBook.FileName

open Encoding (EncodeFailure Utf8.lead? Utf8.tail Utf8.length_of_tail_complete)

/-- The surrogate that a byte is read as. -/
def ofByte (byte : UInt8) : CodePoint :=
  .ofNat (0xDC00 + byte.toNat)

/-- The byte that a surrogate is written as. -/
def byte? : CodePoint → Option UInt8
  | .char _ => none
  | .surrogate offset =>
    if 0x480 ≤ offset.val ∧ offset.val < 0x500 then some (offset.val - 0x400).toUInt8 else none

/-- Reads the bytes of a name. -/
def ofBytes (bytes : Bytes) : CodeText :=
  match bytes with
  | [] => []
  | byte :: rest =>
    match Utf8.lead? byte.toNat with
    | none => ofByte byte :: ofBytes rest
    | some lead =>
      match _read : Utf8.tail lead.following 0 lead.bits lead.low lead.high rest with
      | .complete bits after => .char (Char.ofNat bits) :: ofBytes after
      | .ended | .broken _ => ofByte byte :: ofBytes rest
termination_by bytes.length
decreasing_by
  all_goals simp only [List.length_cons]
  · omega
  · have := Utf8.length_of_tail_complete _read
    omega
  · omega
  · omega

/-- The stored form of a name that goes on after `run`, the bytes of the surrogates
before it, latest first. -/
def storedAfter (run : Bytes) : CodeText → CodeText
  | [] => ofBytes run.reverse
  | code :: rest =>
    match byte? code with
    | some byte => storedAfter (byte :: run) rest
    | none => ofBytes run.reverse ++ code :: storedAfter [] rest

/-- The form in which a listing shows a name. -/
def stored (name : CodeText) : CodeText :=
  storedAfter [] name

/-- A name of characters is stored as it is. -/
theorem stored_ofText (text : Text) : stored (CodeText.ofText text) = CodeText.ofText text := by
  simp only [stored, CodeText.ofText]
  induction text with
  | nil => simp [storedAfter, ofBytes]
  | cons c rest inductionHypothesis =>
    simp [storedAfter, byte?, ofBytes, inductionHypothesis]

/-- The failure to hand over a name or a path: the rest of a run of surrogates, from
the first that is written as no byte. -/
def failure? (text : CodeText) : Option EncodeFailure :=
  match text.dropWhile fun code => !code.isSurrogate || (byte? code).isSome with
  | [] => none
  | refused =>
    some ⟨Encoding.Utf8.codec, refused.takeWhile CodePoint.isSurrogate,
      text.length - refused.length, Encoding.surrogatesRefused⟩

/-- The number of bytes that a code point of a name takes. -/
def codeSize : CodePoint → Nat
  | .char c => c.utf8Size
  | .surrogate _ => 1

/-- The number of bytes that a name or a path takes. -/
def size (text : CodeText) : Nat :=
  text.foldl (fun total code => total + codeSize code) 0

end HeaderBook.FileName

/-- The location to which the names of a path lead from the root directory, if no
link or `..` is among them. -/
def HeaderBook.Path.location (path : Path) : Location :=
  path.names.map FileName.stored
