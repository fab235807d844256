import JavaMachine.CommandLine.Arguments
import JavaMachine.Initialization
import JavaMachine.Report

/-!
# The command line

Loads one class, initializes it if asked to, and shows its layout. No method can be run, so a class
that has code to run on its initialization fails there.
-/

namespace JavaMachine.CommandLine

/-- What the program leaves behind. -/
structure Outcome where
  exitCode : Nat
  output : String := ""
  errors : String := ""
  deriving DecidableEq, Repr

/-- How far the program comes with what is known of the files. -/
inductive Progress where
  | finished (outcome : Outcome)
  /-- It has to know what lies at a path. -/
  | needs (path : String)
  deriving DecidableEq, Repr

/-- Answer to a request for help. -/
def helpText : String := Report.ofLines [
  "Load and link a class, then print its layout",
  "",
  "Usage: classlink [OPTIONS] <CLASS_NAME>",
  "",
  "Arguments:",
  "  <CLASS_NAME>  Internal name of the class, e.g. java/lang/String",
  "",
  "Options:",
  "  -c, --class-path <CLASS_PATH>  " ++
    "Class search path of directories, jar and jmod files, separated by ':' [alias: --cp]",
  "      --init                     Run the static initializer as well",
  "  -v, --verbose                  Log class definitions and initialization",
  "  -h, --help                     Print help",
  "  -V, --version                  Print version"]

/-- Answer to a request for the version. -/
def versionText : String := "jexec 0.1.0\n"

/-- Fails, as there is nothing that could run a method. -/
def noInterpreter : Runner Unit := fun method _ => throw (.internal (.noInterpreter method.label))

/-- Loads the class of a request, initializes it if asked to, and shows its layout. -/
def showClass (request : Request) : MachineM Unit String := do
  MachineM.onWorld World.bootstrap
  let id ← MachineM.onWorld (World.require .bootstrap request.className)
  if request.initializing then initializeClass noInterpreter id
  return Report.ofClass (← MachineM.world) id

/-- The answer to a request. -/
def answer (files : FileSystem) (request : Request) : Except Error String :=
  match Source.ofClassPath files request.classPath with
  | .error cause => .error (.linkage cause)
  | .ok sources => ((showClass request).run.run ⟨World.initial sources, ()⟩).1

/-- Runs the program on the words after its name. -/
def run (files : FileSystem) (words : List String) : Progress :=
  match Request.ofWords words with
  | .error (.fault error) =>
      .finished { exitCode := 2, errors := "error: " ++ error.message ++ "\n" }
  | .error .help => .finished { exitCode := 0, output := helpText }
  | .error .version => .finished { exitCode := 0, output := versionText }
  | .ok request =>
      match answer files request with
      | .ok output => .finished { exitCode := 0, output }
      | .error (.linkage (.unreadableFile (.unasked path))) => .needs path
      | .error error =>
          .finished { exitCode := 1, errors := "error: " ++ error.describe ++ "\n" }

end JavaMachine.CommandLine
