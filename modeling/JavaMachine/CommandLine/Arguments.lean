/-!
# Arguments of the command line

An invocation names one class and may give a class path, in any order. Options are written short
or long; short ones can be joined, and a value can be joined to its option or follow it. Nothing
may be given twice, and after two dashes nothing is an option.
-/

namespace JavaMachine.CommandLine

/-- What an invocation asks for. -/
structure Request where
  /-- The entries of the class path. -/
  classPath : List String
  /-- Whether the class is initialized as well. -/
  initializing : Bool
  verbose : Bool
  className : String
  deriving DecidableEq, Repr

/-- Why the words of an invocation make no request. -/
inductive UsageError where
  | unexpected (word : String)
  | repeated (option : String)
  | missingValue (option : String)
  | unexpectedValue (option value : String)
  | missingClassName
  deriving DecidableEq, Repr

namespace UsageError

/-- Wording of a usage error. -/
def message : UsageError → String
  | unexpected word => "unexpected argument '" ++ word ++ "' found"
  | repeated option => "the argument '" ++ option ++ "' cannot be used multiple times"
  | missingValue option => "a value is required for '" ++ option ++ "' but none was supplied"
  | unexpectedValue option value =>
      "unexpected value '" ++ value ++ "' for '" ++ option ++ "' found; no more were expected"
  | missingClassName => "the following required arguments were not provided: <CLASS_NAME>"

end UsageError

/-- Why reading an invocation ends before its last word. -/
inductive Stop where
  | help
  | version
  | fault (error : UsageError)
  deriving DecidableEq, Repr

/-- What the words read so far have said. -/
structure Arguments where
  classPath : Option String := none
  initializing : Bool := false
  verbose : Bool := false
  className : Option String := none
  deriving DecidableEq, Repr

namespace Arguments

/-- Takes the class path, once. -/
def setClassPath (arguments : Arguments) (value : String) : Except Stop Arguments :=
  if arguments.classPath.isSome then .error (.fault (.repeated "--class-path <CLASS_PATH>"))
  else .ok { arguments with classPath := some value }

/-- Takes the wish to initialize the class, once. -/
def setInitializing (arguments : Arguments) : Except Stop Arguments :=
  if arguments.initializing then .error (.fault (.repeated "--init"))
  else .ok { arguments with initializing := true }

/-- Takes the wish for more output, once. -/
def setVerbose (arguments : Arguments) : Except Stop Arguments :=
  if arguments.verbose then .error (.fault (.repeated "--verbose"))
  else .ok { arguments with verbose := true }

/-- Takes the name of the class, once. -/
def setClassName (arguments : Arguments) (word : String) : Except Stop Arguments :=
  if arguments.className.isSome then .error (.fault (.unexpected word))
  else .ok { arguments with className := some word }

/-- The entries between the colons of a class path; empty ones do not count. -/
def entries (classPath : String) : List String :=
  ((classPath.toList.splitOn ':').map String.ofList).filter (· ≠ "")

/-- The request that the words make when there are no more of them. -/
def request (arguments : Arguments) : Except Stop Request :=
  match arguments.className with
  | none => .error (.fault .missingClassName)
  | some className => .ok {
      classPath := entries (arguments.classPath.getD "")
      initializing := arguments.initializing
      verbose := arguments.verbose
      className }

end Arguments

/-- What the next word can be. -/
inductive Expectation where
  | anything
  /-- The value of the option for the class path. -/
  | classPath
  /-- The name of the class and no option. -/
  | className
  deriving DecidableEq, Repr

/-- How far the reading of an invocation has come. -/
structure Reading where
  arguments : Arguments := {}
  expectation : Expectation := .anything
  deriving DecidableEq, Repr

namespace Reading

/-- Reads options of one letter that are joined into a word. -/
def readLetters (arguments : Arguments) : List Char → Except Stop Reading
  | [] => .ok { arguments }
  | 'h' :: _ => .error .help
  | 'V' :: _ => .error .version
  | 'v' :: rest => do readLetters (← arguments.setVerbose) rest
  | ['c'] => .ok { arguments, expectation := .classPath }
  | 'c' :: '=' :: value => return { arguments := ← arguments.setClassPath (String.ofList value) }
  | 'c' :: value => return { arguments := ← arguments.setClassPath (String.ofList value) }
  | letter :: _ => .error (.fault (.unexpected (String.ofList ['-', letter])))

/-- Reads an option by its long name, with the value that is joined to it. -/
def readLong (arguments : Arguments) (name : String) (value : Option String) :
    Except Stop Reading := do
  match name, value with
  | "class-path", some value | "cp", some value =>
      return { arguments := ← arguments.setClassPath value }
  | "class-path", none | "cp", none => return { arguments, expectation := .classPath }
  | "init", none => return { arguments := ← arguments.setInitializing }
  | "verbose", none => return { arguments := ← arguments.setVerbose }
  | "help", none => throw .help
  | "version", none => throw .version
  | "init", some value | "verbose", some value | "help", some value | "version", some value =>
      throw (.fault (.unexpectedValue ("--" ++ name) value))
  | _, _ => throw (.fault (.unexpected ("--" ++ name)))

/-- The name in front of the first equals sign and the value after it. -/
def splitValue (chars : List Char) : String × Option String :=
  let name := String.ofList (chars.takeWhile (· ≠ '='))
  match chars.dropWhile (· ≠ '=') with
  | [] => (name, none)
  | _ :: value => (name, some (String.ofList value))

/-- Reads a word where an option may stand. -/
def readWord (arguments : Arguments) (word : String) : Except Stop Reading := do
  match word.toList with
  | ['-', '-'] => return { arguments, expectation := .className }
  | '-' :: '-' :: option =>
      let (name, value) := splitValue option
      readLong arguments name value
  | '-' :: letter :: letters => readLetters arguments (letter :: letters)
  | _ => return { arguments := ← arguments.setClassName word }

/-- Whether a word can be the value of the option in front of it. -/
def isValue (word : String) : Bool :=
  match word.toList with
  | '-' :: _ :: _ => false
  | _ => true

/-- Reads one more word. -/
def read (reading : Reading) (word : String) : Except Stop Reading := do
  match reading.expectation with
  | .anything => readWord reading.arguments word
  | .className =>
      return { reading with arguments := ← reading.arguments.setClassName word }
  | .classPath =>
      if isValue word then return { arguments := ← reading.arguments.setClassPath word }
      else throw (.fault (.missingValue "--class-path <CLASS_PATH>"))

/-- Ends the reading. -/
def finish (reading : Reading) : Except Stop Request :=
  match reading.expectation with
  | .classPath => .error (.fault (.missingValue "--class-path <CLASS_PATH>"))
  | _ => reading.arguments.request

end Reading

/-- The request that the words of an invocation make. -/
def Request.ofWords (words : List String) : Except Stop Request := do
  (← words.foldlM Reading.read {}).finish

end JavaMachine.CommandLine
