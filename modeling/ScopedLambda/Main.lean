import ScopedLambda.Command.Run

/-!
# The program

Connects the command to the arguments, the files and the standard streams of the process. The
setting for the journal comes from the variable `RUST_LOG`.
-/

set_option autoImplicit false

namespace ScopedLambda.Command

/-- The number of a system error, which may be given as its negative. -/
def errorNumber (code : UInt32) : Nat :=
  if code.toNat < 0x80000000 then code.toNat else 0x100000000 - code.toNat

/-- A failure of the system as the command reports it. -/
def readFailureOf (error : IO.Error) : ReadFailure :=
  match error with
  | .noFileOrDirectory .. => .notFound
  | .inappropriateType _ code _ => if errorNumber code = 21 then .isDirectory else .notDirectory
  | .invalidArgument _ code _ =>
    if errorNumber code = 36 then .nameTooLong else .other (toString error)
  | _ => .other (toString error)

/-- Reads a source of the process. -/
def readSource (source : Source) : IO (Except ReadFailure ByteArray) := do
  try
    match source with
    | .stdin => return .ok (← (← IO.getStdin).readBinToEnd)
    | .file path => return .ok (← IO.FS.readBinFile path)
  catch error => return .error (readFailureOf error)

/-- Runs the command in the process and returns its exit code. -/
def runProcess (arguments : List String) : IO UInt32 := do
  let report ← run readSource (← IO.getEnv "RUST_LOG") arguments
  (← IO.getStderr).putStr report.stderr
  (← IO.getStdout).putStr report.stdout
  return UInt32.ofNat report.exitCode

end ScopedLambda.Command

def main (arguments : List String) : IO UInt32 := ScopedLambda.Command.runProcess arguments
