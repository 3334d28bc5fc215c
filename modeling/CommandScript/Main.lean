import CommandScript.CommandLine.Execute

/-!
# The program

The files that a command names are read, the command is carried out, and what it leaves is
written to the two outputs.
-/

namespace CommandScript

/-- The number of an error of the system, which may come negated. -/
def systemNumber (code : UInt32) : UInt32 :=
  if code < 0x80000000 then code else 0 - code

/-- The failure behind an error of the file system. -/
def failureOfError (e : IO.Error) : ReadFailure :=
  match e with
  | .noFileOrDirectory .. => .missing
  | .inappropriateType _ code _ =>
    if systemNumber code = 20 then .notDirectory else .isDirectory
  | .permissionDenied .. => .other "Permission denied (os error 13)"
  | e => .other (toString e)

/-- The text of the file at a path. -/
def readFile (path : String) : IO FileText := do
  try
    return textOfBytes (← IO.FS.readBinFile path)
  catch e =>
    return .error (failureOfError e)

/-- The texts of the files that an invocation names. -/
def readNamed (i : Invocation) : IO (List (String × FileText)) :=
  match i with
  | .run _ command => command.files.mapM fun path => do return (path, ← readFile path)
  | _ => return []

end CommandScript

open CommandScript in
def main (arguments : List String) : IO UInt32 := do
  let asked := invocation arguments
  let texts ← readNamed asked
  let t := asked.execute fun path => (texts.lookup path).getD (.error .missing)
  (← IO.getStdout).putStr t.stdout
  (← IO.getStderr).putStr t.stderr
  return t.code.toUInt32
