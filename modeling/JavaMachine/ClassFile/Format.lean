import JavaMachine.ClassFile.Basic

/-!
# The format of class files

A reader and a writer for whole class files. The reader takes the pool's count as the number of
slots plus one, and a count of zero as an empty pool; it insists on the end of the input after the
last attribute.
-/

namespace JavaMachine

namespace Attribute

/-- Reads an attribute without looking into its content. -/
def read : Reader Attribute := do
  let name ← Reader.u2
  let size ← Reader.u4
  return ⟨name, ← Reader.block size.toNat⟩

/-- The bytes of an attribute. -/
def write (block : Attribute) : List UInt8 :=
  Bytes.u2 block.name ++ Bytes.u4 (UInt32.ofNat block.content.length) ++ block.content

end Attribute

namespace Member

/-- A member, whose flags are made from their bits by `flagged`. -/
def read {Flags : Type} (flagged : UInt16 → Flags) : Reader (Member Flags) := do
  let flags ← Reader.u2
  let name ← Reader.u2
  let descriptor ← Reader.u2
  return ⟨flagged flags, name, descriptor, ← Reader.counted Attribute.read⟩

/-- The bytes of a member, whose flags have the bits `bits`. -/
def write {Flags : Type} (bits : Flags → UInt16) (member : Member Flags) : List UInt8 :=
  Bytes.u2 (bits member.flags) ++ Bytes.u2 member.name ++ Bytes.u2 member.descriptor ++
    Bytes.counted Attribute.write member.attributes

end Member

namespace ClassFile

/-- The four bytes that open every class file. -/
def magic : List UInt8 := [0xca, 0xfe, 0xba, 0xbe]

/-- Insists on the opening bytes. -/
def readMagic : Reader Unit := fun input =>
  match input with
  | 0xca :: 0xfe :: 0xba :: 0xbe :: rest => .ok ((), rest)
  | _ => .error (.unknownMark input.length)

/-- The pool with its count. -/
def readPool : Reader (List Constant) := do
  let count ← Reader.u2
  Constant.readPool (count.toNat - 1)

/-- A whole class file. -/
def read : Reader ClassFile := do
  readMagic
  let minorVersion ← Reader.u2
  let majorVersion ← Reader.u2
  let pool ← readPool
  let flags ← Reader.u2
  let thisClass ← Reader.u2
  let superClass ← Reader.u2
  let interfaces ← Reader.counted Reader.u2
  let fields ← Reader.counted (Member.read FieldFlags.mk)
  let methods ← Reader.counted (Member.read MethodFlags.mk)
  let attributes ← Reader.counted Attribute.read
  Reader.finished
  return {
    minorVersion, majorVersion, pool, flags := ⟨flags⟩, thisClass, superClass, interfaces
    fields, methods, attributes }

/-- The class file written by `bytes`. -/
def parse (bytes : List UInt8) : Except Damage ClassFile := read.run' bytes

/-- The bytes of a class file whose pool announces `count`. -/
def writeCounting (count : UInt16) (file : ClassFile) : List UInt8 :=
  magic ++ Bytes.u2 file.minorVersion ++ Bytes.u2 file.majorVersion ++
    Bytes.u2 count ++ file.pool.flatMap Constant.write ++
    Bytes.u2 file.flags.bits ++ Bytes.u2 file.thisClass ++ Bytes.u2 file.superClass ++
    Bytes.counted Bytes.u2 file.interfaces ++
    Bytes.counted (Member.write FieldFlags.bits) file.fields ++
    Bytes.counted (Member.write MethodFlags.bits) file.methods ++
    Bytes.counted Attribute.write file.attributes

/-- The bytes of a class file, whose pool announces one more than its slots. -/
def write (file : ClassFile) : List UInt8 :=
  file.writeCounting (UInt16.ofNat (file.pool.length + 1))

end ClassFile
end JavaMachine
