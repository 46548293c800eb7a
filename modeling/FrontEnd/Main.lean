/-
The program. Everything but reading files, printing and exiting is
decided elsewhere.
-/
import FrontEnd.CommandLine.Run

namespace FrontEnd

/-- The number under which the system tells that a path names a
directory. -/
def directoryNumber : UInt32 := 21

/-- Why reading a file failed. -/
def ReadFailure.ofError : IO.Error → ReadFailure
  | .noFileOrDirectory .. => .notFound
  | .inappropriateType _ number _ =>
    if number == directoryNumber then .isDirectory else .notDirectory
  | e => .other (toString e)

/-- Reads a file. -/
def readFile (path : String) :
    IO (Except ReadFailure (List UInt8)) := do
  try
    return .ok (← IO.FS.readBinFile path).toList
  catch e =>
    return .error (.ofError e)

/-- Runs the program and shows what comes of it. -/
def runAndShow (arguments : List String) : IO UInt32 := do
  let stdout ← IO.getStdout
  let outcome ←
    (Command.ofArguments arguments).run readFile (← stdout.isTty)
  stdout.putStr outcome.output
  stdout.flush
  if let some error := outcome.error then
    IO.eprintln s!"Error: {error}"
  return outcome.exit.toUInt32

end FrontEnd

/-- The program. -/
def main (arguments : List String) : IO UInt32 :=
  FrontEnd.runAndShow arguments
