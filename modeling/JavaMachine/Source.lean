import JavaMachine.ClassFile.Format
import JavaMachine.Error
import JavaMachine.Table

/-!
# Class sources

Where class files come from: files held in memory, a directory, or an archive. A source's answer
for a name never changes.
-/

namespace JavaMachine

/-- A place that class files come from. -/
inductive Source where
  /-- Class files under the names that they declare. -/
  | memory (classes : Table String ClassFile)
  /-- A directory of class files. -/
  | directory (files : FileSystem) (base : String)
  /-- An archive that was read from `path`, with its class files below `folder`. -/
  | archive (path folder : String) (content : Archive)
  deriving Inhabited

namespace Source

/-- How the source is called. -/
def name : Source → String
  | memory _ => "memory"
  | directory _ base => base
  | archive path _ _ => path

/-- Reads the class file of a class that was asked for by name. -/
def parseNamed (className : String) (bytes : List UInt8) : Except LinkageError ClassFile :=
  match ClassFile.parse bytes with
  | .ok file => .ok file
  | .error damage => .error (.damagedClass className damage)

/-- The class file for a class name, if the source has one. -/
def find? (source : Source) (className : String) : Except LinkageError (Option ClassFile) :=
  match source with
  | memory classes => .ok (classes.find? className)
  | directory files base =>
      match files.read (FileSystem.join base (className ++ ".class")) with
      | .ok bytes => (parseNamed className bytes).map some
      | .error .missing => .ok none
      | .error fault => .error (.unreadableFile fault)
  | archive _ folder content =>
      match content.read? (folder ++ className ++ ".class") with
      | .ok (some bytes) => (parseNamed className bytes).map some
      | .ok none => .ok none
      | .error fault => .error (.unreadableArchive fault)

/-- No source has more class files than this. -/
def capacity : Source → Nat
  | memory classes => classes.size
  | directory files _ => files.size
  | archive _ _ content => content.entries.length

/-- The classes in memory after one more, which takes the place of one with its name. -/
def addClass (classes : Table String ClassFile) (bytes : List UInt8) :
    Except LinkageError (Table String ClassFile) :=
  match ClassFile.parse bytes with
  | .error damage => .error (.damaged damage)
  | .ok file =>
      match file.name? with
      | some name => .ok (classes.insert name file)
      | none => .error .invalidThisClass

/-- The folder of an archive in which class files are looked for. -/
def archiveFolder (path : String) : String :=
  if FileSystem.extension? path = some "jmod" then "classes/" else ""

/-- The source that an entry of a class path denotes: a directory, or else an archive. -/
def ofEntry (files : FileSystem) (entry : String) : Except LinkageError Source :=
  if files.isDirectory entry then .ok (directory files entry)
  else
    match files.read entry with
    | .error fault => .error (.unreadableFile fault)
    | .ok bytes =>
        match Archive.parse bytes with
        | .ok content => .ok (archive entry (archiveFolder entry) content)
        | .error fault => .error (.unreadableArchive fault)

/-- The sources that a class path denotes, in order. -/
def ofClassPath (files : FileSystem) (entries : List String) : Except LinkageError (List Source) :=
  entries.mapM (ofEntry files)

end Source
end JavaMachine
