/-!
# Files

What reading a file gives is its text or a `ReadFailure`. A file whose bytes are not UTF-8 has
no text (`textOfBytes`). `extension?` is the part of a path that tells what a file is written
in.
-/

namespace CommandScript

/-- Why a file has no text. -/
inductive ReadFailure
  /-- Nothing is there. -/
  | missing
  /-- The path goes through a file that is no directory. -/
  | notDirectory
  /-- A directory is there. -/
  | isDirectory
  /-- The bytes of the file are not UTF-8. -/
  | notText
  /-- Something else went wrong, in the words of the system. -/
  | other (text : String)
  deriving DecidableEq, Repr

/-- The wording of a failure. -/
def ReadFailure.message : ReadFailure → String
  | missing => "No such file or directory (os error 2)"
  | notDirectory => "Not a directory (os error 20)"
  | isDirectory => "Is a directory (os error 21)"
  | notText => "stream did not contain valid UTF-8"
  | other text => text

/-- The text of a file, or why there is none. -/
abbrev FileText := Except ReadFailure String

/-- The text that bytes are. -/
def textOfBytes (bytes : ByteArray) : FileText :=
  match String.fromUTF8? bytes with
  | some text => .ok text
  | none => .error .notText

/-- The parts of a path between its slashes. -/
def splitPath : List Char → List (List Char)
  | [] => [[]]
  | c :: cs =>
    if c = '/' then [] :: splitPath cs
    else match splitPath cs with
      | [] => [[c]]
      | p :: ps => (c :: p) :: ps

/-- The name at the end of a path. A parent directory has no name. -/
def fileName? (path : List Char) : Option (List Char) :=
  match ((splitPath path).filter fun p => !p.isEmpty && p != ['.']).getLast? with
  | some ['.', '.'] => none
  | name? => name?

/-- What follows the last point of a file's name, unless the name starts with it. -/
def extension? (path : String) : Option String :=
  (fileName? path.toList).bind fun name =>
    let tail := (name.reverse.takeWhile (· != '.')).reverse
    if tail.length + 1 < name.length then some (String.ofList tail) else none

end CommandScript
