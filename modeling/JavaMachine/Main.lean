import JavaMachine.CommandLine.Basic

/-!
# The program

Runs the command line, asks the system for what it needs to know of the files, and tries again until
nothing more is needed.
-/

namespace JavaMachine

/-- The number of a system's error; some of its layers count downwards. -/
def systemNumber (error : IO.Error) : UInt32 :=
  let number := match error with
    | .noFileOrDirectory _ number _ | .inappropriateType _ number _ | .invalidArgument _ number _
    | .permissionDenied _ number _ | .resourceExhausted _ number _ | .otherError number _ => number
    | _ => 0
  min number (0 - number)

/-- Asks the system what lies at a path. -/
def lookAt (path : String) : IO (Except FileFault FileNode) := do
  try
    return .ok (.file (← IO.FS.readBinFile path).toList)
  catch error =>
    match systemNumber error with
    | 2 => return .error .missing
    | 20 => return .error .notDirectory
    | 21 => return .ok .directory
    | 36 => return .error .nameTooLong
    | _ => return .error (.reported (toString error))

/-- Runs the command line with what is known, and with more as long as more is needed. -/
partial def runCommandLine (known : Table String (Except FileFault FileNode))
    (words : List String) : IO CommandLine.Outcome := do
  match CommandLine.run (.answers known) words with
  | .finished outcome => return outcome
  | .needs path => runCommandLine (known.insert path (← lookAt path)) words

end JavaMachine

def main (words : List String) : IO UInt32 := do
  let outcome ← JavaMachine.runCommandLine {} words
  IO.print outcome.output
  IO.eprint outcome.errors
  return UInt32.ofNat outcome.exitCode
