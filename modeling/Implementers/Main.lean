import Implementers.CommandLine.Run
import Implementers.Files.Archive

/-!
# The program

The words of the command line say what to look for, and standard input holds the source files as an
archive.  The report goes to standard output, all else to standard error.
-/

namespace Implementers.CommandLine

/-- The text of a stream up to its end, behind what was read before. -/
partial def readAll
    (stream : IO.FS.Stream)
    (before : String) :
    IO String := do
  let line ← stream.getLine
  if line.isEmpty then
    return before
  else
    readAll stream (before ++ line)

/-- Print what a run leaves behind, and end with its exit code. -/
def finish
    (outcome : Outcome) :
    IO UInt32 := do
  for line in outcome.diagnostics do
    IO.eprintln line
  IO.print outcome.output
  return outcome.exitCode.toUInt32

end Implementers.CommandLine

open Implementers in
/-- Run the program on the words of its command line. -/
def main
    (words : List String) :
    IO UInt32 := do
  match CommandLine.Arguments.ofWords words with
  | .error error => CommandLine.finish (CommandLine.refusal error)
  | .ok arguments =>
      let archive := Archive.ofText (← CommandLine.readAll (← IO.getStdin) "")
      let terminalColor ← (← IO.getStdout).isTty
      CommandLine.finish (CommandLine.outcome archive.fileSystem arguments terminalColor)
