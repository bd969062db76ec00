import FiniteElements.Command.Run

/-!
# The program

Runs the command line on the process arguments, reading the input file when the run asks for it,
and prints the transcript. A run that ends with an error prints the error once more and exits
with status 1.
-/

namespace FiniteElements.Command

/-- Why a file cannot be read, in the words of the command line. -/
def readFailure (path : String) : IO.Error → String
  | .noFileOrDirectory .. => "open " ++ path ++ ": no such file or directory"
  | .inappropriateType .. => "read " ++ path ++ ": is a directory"
  | .permissionDenied .. => "open " ++ path ++ ": permission denied"
  | e => "open " ++ path ++ ": " ++ toString e

/-- The contents of a file, or why it cannot be read. -/
def readInput (path : String) : IO (Except String String) := do
  try
    return .ok (← IO.FS.readFile path)
  catch e =>
    return .error (readFailure path e)

end FiniteElements.Command

/-- Runs the command line on the arguments. -/
def main (args : List String) : IO UInt32 := do
  let transcript ← match FiniteElements.Command.runCommandLine args with
    | .finished t => pure t
    | .reading path resume => pure (resume (← FiniteElements.Command.readInput path))
  let out ← IO.getStdout
  out.putStr transcript.output
  match transcript.error with
  | some e =>
    out.putStrLn e.message
    out.flush
    return 1
  | none =>
    out.flush
    return 0
