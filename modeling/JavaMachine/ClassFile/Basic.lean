import JavaMachine.AccessFlags
import JavaMachine.ClassFile.Constant
import JavaMachine.Text.ModifiedUtf8

/-!
# Class files

A class file as it is written: every reference is still an index into the constant pool. Index 0
is no entry; slot `i` of the pool holds index `i + 1`.
-/

namespace JavaMachine

/-- A named block of bytes attached to a class, a field or a method. -/
structure Attribute where
  name : UInt16
  content : List UInt8
  deriving DecidableEq, Repr, Inhabited

/-- A declared field or method, with flags of the given kind. -/
structure Member (Flags : Type) where
  flags : Flags
  name : UInt16
  descriptor : UInt16
  attributes : List Attribute
  deriving DecidableEq, Repr, Inhabited

/-- The content of a class file. -/
structure ClassFile where
  minorVersion : UInt16
  majorVersion : UInt16
  pool : List Constant
  flags : ClassFlags
  thisClass : UInt16
  superClass : UInt16
  interfaces : List UInt16
  fields : List (Member FieldFlags)
  methods : List (Member MethodFlags)
  attributes : List Attribute
  deriving DecidableEq, Repr, Inhabited

namespace ClassFile

/-- The constant at a pool index. -/
def constant? (file : ClassFile) (index : UInt16) : Option Constant :=
  match index.toNat with
  | 0 => none
  | slot + 1 => file.pool[slot]?

/-- The text at a pool index. -/
def text? (file : ClassFile) (index : UInt16) : Option String :=
  match file.constant? index with
  | some (.utf8 bytes) => Text.ModifiedUtf8.decode bytes
  | _ => none

/-- The name behind a class reference. -/
def className? (file : ClassFile) (index : UInt16) : Option String :=
  match file.constant? index with
  | some (.classRef name) => file.text? name
  | _ => none

/-- The name of the class that the file declares. -/
def name? (file : ClassFile) : Option String := file.className? file.thisClass

end ClassFile
end JavaMachine
