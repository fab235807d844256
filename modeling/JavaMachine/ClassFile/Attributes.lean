import JavaMachine.ClassFile.Basic

/-!
# Attribute contents

The attributes that linking understands: the code of a method, and what a class says about its
source, its signature, its inner classes, its enclosing method and its bootstrap methods. Bytes
after a complete content are ignored.
-/

namespace JavaMachine

/-- A range of code guarded by a handler; catch type 0 catches everything. -/
structure HandlerRange where
  start : UInt16
  stop : UInt16
  handler : UInt16
  catchType : UInt16
  deriving DecidableEq, Repr, Inhabited

namespace HandlerRange

/-- Reads a range and its handler. -/
def read : Reader HandlerRange :=
  return ⟨← Reader.u2, ← Reader.u2, ← Reader.u2, ← Reader.u2⟩

/-- The bytes of a range and its handler. -/
def write (range : HandlerRange) : List UInt8 :=
  Bytes.u2 range.start ++ Bytes.u2 range.stop ++ Bytes.u2 range.handler ++ Bytes.u2 range.catchType

end HandlerRange

/-- The body of a method. -/
structure Code where
  maxStack : UInt16
  maxLocals : UInt16
  bytes : List UInt8
  handlers : List HandlerRange
  deriving DecidableEq, Repr, Inhabited

namespace Code

/-- Passes over an attribute of the code. -/
def skipAttribute : Reader Unit := do
  let _ ← Reader.u2
  let size ← Reader.u4
  let _ ← Reader.innerBlock size.toNat

/-- The content of a code attribute, of whose own attributes nothing is kept. -/
def read : Reader Code := do
  let maxStack ← Reader.u2
  let maxLocals ← Reader.u2
  let size ← Reader.u4
  let bytes ← Reader.innerBlock size.toNat
  let handlers ← Reader.counted HandlerRange.read
  let _ ← Reader.counted skipAttribute
  return ⟨maxStack, maxLocals, bytes, handlers⟩

/-- The content of a code attribute that has the attributes `nested`. -/
def write (code : Code) (nested : List Attribute) : List UInt8 :=
  Bytes.u2 code.maxStack ++ Bytes.u2 code.maxLocals ++
    Bytes.u4 (UInt32.ofNat code.bytes.length) ++ code.bytes ++
    Bytes.counted HandlerRange.write code.handlers ++
    Bytes.counted
      (fun item =>
        Bytes.u2 item.name ++ Bytes.u4 (UInt32.ofNat item.content.length) ++ item.content)
      nested

end Code

/-- An inner class, by pool indices and flags. -/
structure InnerClass where
  inner : UInt16
  outer : UInt16
  name : UInt16
  flags : UInt16
  deriving DecidableEq, Repr, Inhabited

namespace InnerClass

/-- Reads an inner class. -/
def read : Reader InnerClass :=
  return ⟨← Reader.u2, ← Reader.u2, ← Reader.u2, ← Reader.u2⟩

/-- The bytes of an inner class. -/
def write (item : InnerClass) : List UInt8 :=
  Bytes.u2 item.inner ++ Bytes.u2 item.outer ++ Bytes.u2 item.name ++ Bytes.u2 item.flags

end InnerClass

/-- The method around a local class; method 0 is no method. -/
structure EnclosingMethod where
  owner : UInt16
  method : UInt16
  deriving DecidableEq, Repr, Inhabited

namespace EnclosingMethod

/-- Reads an enclosing method. -/
def read : Reader EnclosingMethod := return ⟨← Reader.u2, ← Reader.u2⟩

end EnclosingMethod

/-- A bootstrap method with its static arguments. -/
structure BootstrapMethod where
  method : UInt16
  arguments : List UInt16
  deriving DecidableEq, Repr, Inhabited

namespace BootstrapMethod

/-- Reads a bootstrap method. -/
def read : Reader BootstrapMethod := return ⟨← Reader.u2, ← Reader.counted Reader.u2⟩

/-- The bytes of a bootstrap method. -/
def write (item : BootstrapMethod) : List UInt8 :=
  Bytes.u2 item.method ++ Bytes.counted Bytes.u2 item.arguments

end BootstrapMethod

/-- The attributes of a class that are kept. -/
structure ClassAttributes where
  sourceFile : Option String := none
  signature : Option String := none
  innerClasses : List InnerClass := []
  enclosingMethod : Option EnclosingMethod := none
  bootstrapMethods : List BootstrapMethod := []
  deriving DecidableEq, Repr, Inhabited

end JavaMachine
