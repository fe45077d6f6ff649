/-
# The command line

Looks the sample up in the file system, and prints what the program has to say about it.
-/
import SigScan.CommandLine.Program

namespace SigScan.CommandLine

/-- What the system tells of a failure. -/
def systemError : IO.Error → SystemError
  | .otherError number words | .resourceBusy number words | .resourceVanished number words
  | .unsupportedOperation number words | .hardwareFault number words
  | .unsatisfiedConstraints number words | .illegalOperation number words
  | .protocolError number words | .timeExpired number words | .interrupted _ number words
  | .noFileOrDirectory _ number words | .alreadyExists _ number words
  | .invalidArgument _ number words | .permissionDenied _ number words
  | .resourceExhausted _ number words | .inappropriateType _ number words
  | .noSuchThing _ number words => ⟨number.toNat, words⟩
  | .unexpectedEof => ⟨0, "unexpected end of file"⟩
  | .userError words => ⟨0, words⟩

/-- The errors, by their numbers, that say that no file is at a path: beside those of a missing name
and of a path behind a file, that of links which never end. -/
def ofRefusal (e : SystemError) : Lookup :=
  if e.number = SystemError.missing.number then .missing
  else if e.number = SystemError.notADirectory.number then .notADirectory
  else if e.number = 40 then .special (.failed (.unopened e))
  else .refused e

/-- What a path leads to in the file system. -/
def lookUp (path : Path) : IO Lookup := do
  if path.hasZero then return .unnameable
  let target := (← IO.currentDir) / path.text
  let read : IO Reading := do
    try
      return .content (← IO.FS.readBinFile target).data
    catch e =>
      return .failed (.unopened (systemError e))
  try
    match (← target.metadata).type with
    | .dir => return .directory
    | .file =>
      match ← read with
      | .content bytes => return .file bytes
      | .failed e => return .unreadable e
    | _ => return .special (← read)
  catch e =>
    return ofRefusal (systemError e)

/-- What the program prints for a command line. -/
def call (arguments : List String) : IO (Except Breakdown Printed) :=
  match parse arguments with
  | .error stop => return .ok stop.print
  | .ok request => return perform request (← lookUp request.path)

end SigScan.CommandLine

/-- Runs the program. -/
def main (arguments : List String) : IO UInt32 := do
  match ← SigScan.CommandLine.call arguments with
  | .ok printed =>
    (← IO.getStdout).putStr printed.stdout
    (← IO.getStderr).putStr printed.stderr
    return printed.exit.toUInt32
  | .error breakdown =>
    (← IO.getStderr).putStr s!"{breakdown.message}\n"
    return 1
