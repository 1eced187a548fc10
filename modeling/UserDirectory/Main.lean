import Std.Time.DateTime.Timestamp
import UserDirectory.Command.Run

/-!
# The program

The command line at work: files, variables, the clock and random numbers are those of the machine.
The library has no connection to a network, so that every search of the directory fails as it does
when nothing answers.
-/

namespace UserDirectory

/-- The text of a file, unless it cannot be read or is no text. -/
def fileText? (path : String) : IO (Option String) := do
  try
    pure (some (← IO.FS.readFile ⟨path⟩))
  catch _ => pure none

/-- **The machine as surroundings of a run.** -/
def Host.machine : Host IO where
  fileText := fileText?
  variableText name := IO.getEnv name
  transport _ := pure none
  clock := do pure (← Std.Time.Timestamp.now).toNanosecondsSinceUnixEpoch.val.toNat
  newTokenId := do pure (tokenIdOf (← IO.getRandomBytes 16).toList)

end UserDirectory

/-- Runs the command line. -/
def main (arguments : List String) : IO UInt32 := do
  let outcome ← UserDirectory.runCommand UserDirectory.Host.machine arguments
  (← IO.getStdout).putStr outcome.stdout
  (← IO.getStderr).putStr outcome.stderr
  pure (UInt32.ofNat outcome.code)
