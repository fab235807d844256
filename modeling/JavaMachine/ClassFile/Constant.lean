import JavaMachine.Bytes

/-!
# Constants

The entries of a class file's constant pool, as they are written: numbers as bit patterns, texts as
modified UTF-8, references as indices. A long or a double takes two slots, of which the second is
`empty`.
-/

namespace JavaMachine

/-- The kinds of pool entries. -/
inductive ConstantTag where
  | utf8 | integer | float | long | double | classRef | string | fieldRef | methodRef
  | interfaceMethodRef | nameAndType | methodHandle | methodType | dynamic | invokeDynamic
  | moduleRef | packageRef
  /-- The second slot of a long or a double. -/
  | empty
  deriving DecidableEq, Repr, Inhabited

namespace ConstantTag

/-- Name of the kind of entry. -/
def name : ConstantTag → String
  | utf8 => "Utf8"
  | integer => "Integer"
  | float => "Float"
  | long => "Long"
  | double => "Double"
  | classRef => "Class"
  | string => "String"
  | fieldRef => "Fieldref"
  | methodRef => "Methodref"
  | interfaceMethodRef => "InterfaceMethodref"
  | nameAndType => "NameAndType"
  | methodHandle => "MethodHandle"
  | methodType => "MethodType"
  | dynamic => "Dynamic"
  | invokeDynamic => "InvokeDynamic"
  | moduleRef => "Module"
  | packageRef => "Package"
  | empty => "Empty"

/-- The kind that a tag byte announces; no byte announces an empty slot. -/
def ofByte? (byte : UInt8) : Option ConstantTag :=
  match byte.toNat with
  | 1 => some utf8
  | 3 => some integer
  | 4 => some float
  | 5 => some long
  | 6 => some double
  | 7 => some classRef
  | 8 => some string
  | 9 => some fieldRef
  | 10 => some methodRef
  | 11 => some interfaceMethodRef
  | 12 => some nameAndType
  | 15 => some methodHandle
  | 16 => some methodType
  | 17 => some dynamic
  | 18 => some invokeDynamic
  | 19 => some moduleRef
  | 20 => some packageRef
  | _ => none

/-- The tag byte of a kind; empty slots have none of their own. -/
def byte : ConstantTag → UInt8
  | utf8 => 1
  | integer => 3
  | float => 4
  | long => 5
  | double => 6
  | classRef => 7
  | string => 8
  | fieldRef => 9
  | methodRef => 10
  | interfaceMethodRef => 11
  | nameAndType => 12
  | methodHandle => 15
  | methodType => 16
  | dynamic => 17
  | invokeDynamic => 18
  | moduleRef => 19
  | packageRef => 20
  | empty => 0

end ConstantTag

/-- An entry of a constant pool. -/
inductive Constant where
  | utf8 (bytes : List UInt8)
  | integer (value : Int32)
  | float (bits : UInt32)
  | long (high low : UInt32)
  | double (high low : UInt32)
  | classRef (name : UInt16)
  | string (text : UInt16)
  | fieldRef (owner nameAndType : UInt16)
  | methodRef (owner nameAndType : UInt16)
  | interfaceMethodRef (owner nameAndType : UInt16)
  | nameAndType (name descriptor : UInt16)
  | methodHandle (kind : UInt8) (reference : UInt16)
  | methodType (descriptor : UInt16)
  | dynamic (bootstrap nameAndType : UInt16)
  | invokeDynamic (bootstrap nameAndType : UInt16)
  | moduleRef (name : UInt16)
  | packageRef (name : UInt16)
  | empty
  deriving DecidableEq, Repr, Inhabited

namespace Constant

/-- The kind of an entry. -/
def tag : Constant → ConstantTag
  | utf8 _ => .utf8
  | integer _ => .integer
  | float _ => .float
  | long _ _ => .long
  | double _ _ => .double
  | classRef _ => .classRef
  | string _ => .string
  | fieldRef _ _ => .fieldRef
  | methodRef _ _ => .methodRef
  | interfaceMethodRef _ _ => .interfaceMethodRef
  | nameAndType _ _ => .nameAndType
  | methodHandle _ _ => .methodHandle
  | methodType _ => .methodType
  | dynamic _ _ => .dynamic
  | invokeDynamic _ _ => .invokeDynamic
  | moduleRef _ => .moduleRef
  | packageRef _ => .packageRef
  | empty => .empty

/-- Whether the constant takes two slots. -/
def isWide : Constant → Bool
  | long _ _ | double _ _ => true
  | _ => false

/-- What follows the tag byte of a kind. -/
def readBody : ConstantTag → Reader Constant
  | .utf8 => do
      let size ← Reader.u2
      return utf8 (← Reader.block size.toNat)
  | .integer => return integer (← Reader.u4).toInt32
  | .float => return float (← Reader.u4)
  | .long => return long (← Reader.u4) (← Reader.u4)
  | .double => return double (← Reader.u4) (← Reader.u4)
  | .classRef => return classRef (← Reader.u2)
  | .string => return string (← Reader.u2)
  | .fieldRef => return fieldRef (← Reader.u2) (← Reader.u2)
  | .methodRef => return methodRef (← Reader.u2) (← Reader.u2)
  | .interfaceMethodRef => return interfaceMethodRef (← Reader.u2) (← Reader.u2)
  | .nameAndType => return nameAndType (← Reader.u2) (← Reader.u2)
  | .methodHandle => return methodHandle (← Reader.u1) (← Reader.u2)
  | .methodType => return methodType (← Reader.u2)
  | .dynamic => return dynamic (← Reader.u2) (← Reader.u2)
  | .invokeDynamic => return invokeDynamic (← Reader.u2) (← Reader.u2)
  | .moduleRef => return moduleRef (← Reader.u2)
  | .packageRef => return packageRef (← Reader.u2)
  | .empty => return empty

/-- The kind of the constant at the front of the input. -/
def readTag : Reader ConstantTag
  | [] => .error (.misplacedEnd 0)
  | byte :: rest =>
      match ConstantTag.ofByte? byte with
      | some tag => .ok (tag, rest)
      | none => .error (.unknownMark rest.length)

/-- One constant with its tag byte. -/
def read : Reader Constant := do
  let tag ← readTag
  readBody tag

/-- The constants of `slots` pool slots. A wide constant in the last slot still brings its second
slot along. -/
def readPool : Nat → Reader (List Constant)
  | 0 => return []
  | slots + 1 => do
      let constant ← read
      if constant.isWide then
        match slots with
        | 0 => return [constant, empty]
        | slots + 1 => return constant :: empty :: (← readPool slots)
      else
        return constant :: (← readPool slots)

/-- The bytes after the tag byte. -/
def writeBody : Constant → List UInt8
  | utf8 bytes => Bytes.u2 (UInt16.ofNat bytes.length) ++ bytes
  | integer value => Bytes.u4 value.toUInt32
  | float bits => Bytes.u4 bits
  | long high low | double high low => Bytes.u4 high ++ Bytes.u4 low
  | classRef index | string index | methodType index | moduleRef index | packageRef index =>
      Bytes.u2 index
  | fieldRef first second | methodRef first second | interfaceMethodRef first second
  | nameAndType first second | dynamic first second | invokeDynamic first second =>
      Bytes.u2 first ++ Bytes.u2 second
  | methodHandle kind reference => kind :: Bytes.u2 reference
  | empty => []

/-- The bytes of a constant; an empty slot has none. -/
def write : Constant → List UInt8
  | empty => []
  | constant => constant.tag.byte :: constant.writeBody

end Constant
end JavaMachine
