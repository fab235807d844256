import JavaMachine.ArrayAccess
import JavaMachine.Invocation

/-!
# Instructions

The instructions that touch classes, objects or calls. Each works on a frame, within a class whose
constants it names by index.
-/

namespace JavaMachine

/-- An instruction. -/
inductive Instruction where
  | newarray (number : Int32)
  | arraylength
  | arrayLoad (type : CellType)
  | arrayStore (type : CellType)
  | aaload
  | aastore
  | getstatic (index : UInt16)
  | putstatic (index : UInt16)
  | getfield (index : UInt16)
  | putfield (index : UInt16)
  | new (index : UInt16)
  | anewarray (index : UInt16)
  | multianewarray (index : UInt16) (dimensions : UInt8)
  | invokespecial (index : UInt16)
  | invokestatic (index : UInt16)
  | invokevirtual (index : UInt16)
  | invokeinterface (index : UInt16)
  | ldc (index : UInt16)
  | instanceof (index : UInt16)
  | checkcast (index : UInt16)
  deriving DecidableEq, Repr

variable {Client : Type}

namespace FrameM

/-- Pushes a new instance of a class, once the class is initialized. -/
def newInstance (run : Runner Client) (current : ClassId) (index : UInt16) :
    FrameM Client Unit := do
  let id ← onWorld (World.resolveClass current index)
  let type := (← world).type id
  if type.isArray ∨ type.isInterface ∨ type.isAbstract then
    throw (.linkage (.instantiation type.name))
  else
    onMachine (initializeClass run id)
    let object ← onWorld (World.allocateInstance id)
    onStack (OperandStack.push (.reference (some object)))

/-- The value of a constant with a tag: a number, a string, or the mirror of a class. -/
def constantValue (current : ClassId) (index : UInt16) : ConstantTag → FrameM Client Value
  | .integer => .int <$> onWorld (World.resolveInt current index)
  | .float => .float <$> onWorld (World.resolveFloat current index)
  | .long => .long <$> onWorld (World.resolveLong current index)
  | .double => .double <$> onWorld (World.resolveDouble current index)
  | .string => do
      let object ← onWorld (World.resolveString current index)
      return .reference (some object)
  | .classRef => do
      let id ← onWorld (World.resolveClass current index)
      onWorld (World.ensureMirror id)
      let type := (← world).type id
      match type.mirror with
      | some mirror => return .reference (some mirror)
      | none => throw (.internal (.noMirror type.name))
  | tag => throw (.internal (.notLoadable tag index))

/-- Pushes a constant. -/
def loadConstant (current : ClassId) (index : UInt16) : FrameM Client Unit := do
  let tag ← ofExcept ((← world).tagAt current index)
  let value ← constantValue current index tag
  onStack (OperandStack.push value)

/-- Pops a reference and pushes whether it leads to an object assignable to a class. -/
def testInstance (current : ClassId) (index : UInt16) : FrameM Client Unit := do
  match ← onStack OperandStack.popReference with
  | none => onStack (OperandStack.push (.int 0))
  | some object =>
      let target ← onWorld (World.resolveClass current index)
      let world ← world
      let holds := world.isAssignable (world.object object).type target
      onStack (OperandStack.push (.int (if holds then 1 else 0)))

/-- Leaves a reference on the stack if it is null or leads to an object assignable to a class. -/
def checkCast (current : ClassId) (index : UInt16) : FrameM Client Unit := do
  let reference ← onStack OperandStack.popReference
  match reference with
  | none => onStack (OperandStack.push (.reference none))
  | some object =>
      let target ← onWorld (World.resolveClass current index)
      let world ← world
      if world.isAssignable (world.object object).type target then
        onStack (OperandStack.push (.reference reference))
      else
        throw (.runtime (.badCast (world.typeOf object).name (world.type target).name))

/-- Executes an instruction within a class. -/
def execute (run : Runner Client) (current : ClassId) : Instruction → FrameM Client Unit
  | .newarray number => newPrimitiveArray number
  | .arraylength => arrayLength
  | .arrayLoad type => loadElement type
  | .arrayStore type => storeElement type
  | .aaload => loadReference
  | .aastore => storeReference
  | .getstatic index => getStatic run current index
  | .putstatic index => putStatic run current index
  | .getfield index => getField run current index
  | .putfield index => putField run current index
  | .new index => newInstance run current index
  | .anewarray index => newReferenceArray current index
  | .multianewarray index dimensions => newNestedArray current index dimensions
  | .invokespecial index => invokeSpecial run current index
  | .invokestatic index => invokeStatic run current index
  | .invokevirtual index | .invokeinterface index => invokeDynamic run current index
  | .ldc index => loadConstant current index
  | .instanceof index => testInstance current index
  | .checkcast index => checkCast current index

end FrameM
end JavaMachine
