import WordMachine.CommandLine

/-! # The program

Reads the files that the arguments name, runs the command line on them and prints what
it reports.
-/

open WordMachine

namespace WordMachine.CommandLine

/-- The number of a system error, whichever sign it is reported with. -/
def systemCode (code : UInt32) : Nat :=
  min code.toNat (0x100000000 - code.toNat)

/-- The fault that a failed read shows. -/
def faultOf : IO.Error → FileFault
  | .noFileOrDirectory .. => .missing
  | .permissionDenied .. => .denied
  | .inappropriateType _ code _ => if systemCode code = 20 then .notDirectory else .isDirectory
  | .invalidArgument _ code details =>
    if systemCode code = 36 then .nameTooLong else .other details
  | error => .other (toString error)

/-- The text of a file. -/
def readText (path : String) : IO (Except FileFault String) := do
  try
    return fileText (← IO.FS.readBinFile path)
  catch error =>
    return .error (faultOf error)

end WordMachine.CommandLine

/-- Runs the program. -/
def main (args : List String) : IO UInt32 := do
  let texts ← args.mapM fun path => return (path, ← CommandLine.readText path)
  let files : CommandLine.Files := fun path => (texts.lookup path).getD (.error .missing)
  let report := CommandLine.run files args
  let stdout ← IO.getStdout
  let stderr ← IO.getStderr
  stdout.putStr report.stdout
  stdout.flush
  stderr.putStr report.stderr
  return UInt32.ofNat report.exit
