import NostrCapsule.CommandLine.Run
import Std.Time.DateTime.Timestamp

/-!
Contract: the program.

It collects what a run may look at, and prints how the run ends.  Only the files that the
arguments name are read, and standard input only if the page is made from it.

Owns: the reading of files, of standard input and of the clock, and the printing.

Does not own: any decision of a run.
-/

namespace NostrCapsule.CommandLine

def readPath (path : String) : IO PathContent := do
  match ← (IO.FS.Handle.mk path .read).toBaseIO with
  | .error refusal => pure (.unopened (toString refusal))
  | .ok handle =>
      match ← handle.readBinToEnd.toBaseIO with
      | .error refusal => pure (.unreadable (toString refusal))
      | .ok octets => pure (.file octets.toList)

/-- The paths that options name, each with what it leads to. -/
def readNamed (options : Options) : IO (List (String × PathContent)) :=
  (options.config.toList ++ options.events.toList ++ options.relays.toList).mapM fun path => do
    pure (path, ← readPath path)

def readStandardInput (options : Options) : IO (List UInt8) := do
  if options.page = .expand then
    let stream ← IO.getStdin
    pure (← stream.readBinToEnd).toList
  else pure []

def collect (options : Options) : IO Surroundings := do
  let files ← readNamed options
  let standardInput ← readStandardInput options
  let time ← Std.Time.Timestamp.now
  pure
    { contentAt := fun path => (files.lookup path).getD (.unopened "the file was not read")
      standardInput
      now := time.toSecondsSinceUnixEpoch.val }

/-- What a run may look at; nothing if its arguments are not understood. -/
def surroundingsOf (arguments : List String) : IO Surroundings :=
  match Options.parse? arguments with
  | some options => collect options
  | none => pure { contentAt := fun _ => .unopened "no file", standardInput := [], now := 0 }

end NostrCapsule.CommandLine

open NostrCapsule.CommandLine in
/-- Runs the program and gives its exit code. -/
def main (arguments : List String) : IO UInt32 := do
  let outcome := run (← surroundingsOf arguments) arguments
  (← IO.getStdout).putStr outcome.standardOutput
  (← IO.getStderr).putStr (outcome.standardError programName)
  pure outcome.exitCode.toUInt32
