import GridPattern.Shell

/-!
# The program

Reads files and standard input, and prints the answer of the command line.
-/

namespace GridPattern.Shell

open CommandLine

/-- The reason for a failed read. -/
def reasonOf : IO.Error → String
  | .noFileOrDirectory .. => notFound
  | .inappropriateType .. => isDirectory
  | error => toString error

/-- The text of the bytes that are read, or the reason why there is none. -/
def readText (read : IO ByteArray) : IO (Except String String) := do
  try
    return textOfBytes (← read)
  catch error => return .error (reasonOf error)

/-- The system that the program is run on, and its terminal. -/
def system : Surroundings IO where
  file name := readText (IO.FS.readBinFile name)
  standardInput := readText do (← IO.getStdin).readBinToEnd
  explain
  styling := colours

/-- The patience of the program: more than a machine will ever use up. -/
def patience : Nat := Nat.pow 2 62

end GridPattern.Shell

open GridPattern CommandLine Shell in
/-- Answers one call of the program. -/
def main (args : List String) : IO UInt32 := do
  match args? args with
  | none =>
    IO.eprintln "Usage: [OPTIONS] PROGRAM [INPUT]"
    return 2
  | some args =>
    let response ← answer system args patience
    IO.print response.out
    IO.eprint response.err
    return response.exitCode.toUInt32
