import JavaMachine.Table

/-!
# File systems

What is known of the files that a program may read: all that lies below a working directory, with
the rules by which a written path leads there, or the answers that a system has given so far, path
by path.
-/

namespace JavaMachine

/-- Why a path leads to no file content. -/
inductive FileFault where
  | missing
  | notDirectory
  | isDirectory
  | nameTooLong
  | nulInName
  /-- Another report of a system. -/
  | reported (text : String)
  /-- Nobody has asked yet what lies there. -/
  | unasked (path : String)
  deriving DecidableEq, Repr

namespace FileFault

/-- The system's report of a fault. -/
def message : FileFault → String
  | missing => "No such file or directory (os error 2)"
  | notDirectory => "Not a directory (os error 20)"
  | isDirectory => "Is a directory (os error 21)"
  | nameTooLong => "File name too long (os error 36)"
  | nulInName => "file name contained an unexpected NUL byte"
  | reported text => text
  | unasked path => "nothing is known of " ++ path

end FileFault

/-- What a path can lead to. -/
inductive FileNode where
  | directory
  | file (content : List UInt8)
  deriving DecidableEq, Repr

/-- What is known of files, as a whole or path by path. -/
inductive FileSystem where
  /-- Files and directories below the working directory, by their path components. Directories
  above an entry need no entry. -/
  | tree (entries : List (List String × FileNode))
  /-- What a system has found at the paths it was asked for. -/
  | answers (known : Table String (Except FileFault FileNode))
  deriving Inhabited

namespace FileSystem

/-- No more paths than this lead to files. -/
def size : FileSystem → Nat
  | tree entries => entries.length
  | answers known => known.size

/-- The components between the slashes of a path. -/
def components (path : String) : List String :=
  (path.toList.splitOn '/').map String.ofList

/-- The proper components of a path, as they name an entry. -/
def entryName (path : String) : List String :=
  (components path).filter fun component => component ≠ "" ∧ component ≠ "."

/-- What lies at a place in a tree. -/
def nodeIn (entries : List (List String × FileNode)) (place : List String) : Option FileNode :=
  match entries.find? fun entry => entry.1 = place with
  | some entry => some entry.2
  | none =>
      if place.isEmpty ∨ entries.any fun entry => place.isPrefixOf entry.1
      then some .directory else none

/-- The longest component that a directory can hold, in bytes. -/
def longestName : Nat := 255

/-- The longest path that a system takes, in bytes. -/
def longestPath : Nat := 4095

/-- Follows the components of a path outside the working directory, where only the directories above
it are seen. -/
def walkOutside : List String → Except FileFault FileNode
  | [] => .ok .directory
  | component :: rest =>
      if component = "" ∨ component = "." ∨ component = ".." then walkOutside rest
      else if longestName < component.utf8ByteSize then .error .nameTooLong
      else .error .missing

/-- Follows the components of a path from a place in a tree. An empty component and a dot stay
there, two dots go up; each needs a directory to stand in. -/
def walk (entries : List (List String × FileNode)) :
    (place : List String) → List String → Except FileFault FileNode
  | place, [] =>
      match nodeIn entries place with
      | some node => .ok node
      | none => .error .missing
  | place, component :: rest =>
      match nodeIn entries place with
      | none => .error .missing
      | some (.file _) => .error .notDirectory
      | some .directory =>
          if component = "" ∨ component = "." then walk entries place rest
          else if component = ".." then
            if place.isEmpty then walkOutside rest else walk entries place.dropLast rest
          else if longestName < component.utf8ByteSize then .error .nameTooLong
          else walk entries (place ++ [component]) rest

/-- What a path leads to. A relative path starts in the working directory, where an empty one
stays. -/
def locate (files : FileSystem) (path : String) : Except FileFault FileNode :=
  if path.toList.contains (Char.ofNat 0) then .error .nulInName
  else
    match files with
    | answers known => (known.find? path).getD (.error (.unasked path))
    | tree entries =>
        if longestPath < path.utf8ByteSize then .error .nameTooLong
        else if path.toList.head? = some '/' then walkOutside (components path)
        else walk entries [] (components path)

/-- Whether a path leads to a directory. -/
def isDirectory (files : FileSystem) (path : String) : Bool :=
  match files.locate path with
  | .ok .directory => true
  | _ => false

/-- The content of the file at a path. -/
def read (files : FileSystem) (path : String) : Except FileFault (List UInt8) :=
  match files.locate path with
  | .ok (.file content) => .ok content
  | .ok .directory => .error .isDirectory
  | .error fault => .error fault

/-- A path below a base; an absolute one stands alone. -/
def join (base path : String) : String :=
  if base.isEmpty ∨ path.toList.head? = some '/' then path
  else if base.toList.getLast? = some '/' then base ++ path
  else base ++ "/" ++ path

/-- The part after the last dot of the last component, where there is one with a name before it. -/
def extension? (path : String) : Option String :=
  match (entryName path).getLast? with
  | none | some ".." => none
  | some name =>
      match (name.toList.splitOn '.').reverse with
      | last :: before :: earlier =>
          if earlier.isEmpty ∧ before.isEmpty then none else some (String.ofList last)
      | _ => none

end FileSystem
end JavaMachine
