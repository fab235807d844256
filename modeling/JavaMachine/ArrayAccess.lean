import JavaMachine.Machine

/-!
# Arrays

The instructions on arrays: loads, stores, the length, and the allocation of arrays of one or more
dimensions.
-/

namespace JavaMachine

variable {Client : Type}

namespace World

/-- The world with another element in a primitive array. -/
def putElement (world : World) (array : ObjectId) (type : CellType) (index : Int32)
    (cell : type.Cell) : Except Error World :=
  ((world.object array).putElement (world.typeOf array).name type index cell).map
    (world.setObject array)

/-- The world with another element in a reference array. -/
def putReference (world : World) (array : ObjectId) (index : Int32) (element : Option ObjectId) :
    Except Error World :=
  ((world.object array).putReference (world.typeOf array).name index element).map
    (world.setObject array)

/-- The length that an int stands for. -/
def arrayLength (length : Int32) : Except RuntimeException Nat :=
  if 0 ≤ length.toInt then .ok length.toInt.toNat else .error (.negativeArraySize length)

/-- The element type that a number stands for in the allocation of a primitive array. -/
def primitiveOfNumber? (number : Int32) : Option Primitive :=
  match number.toInt with
  | 4 => some .boolean
  | 5 => some .char
  | 6 => some .float
  | 7 => some .double
  | 8 => some .byte
  | 9 => some .short
  | 10 => some .int
  | 11 => some .long
  | _ => none

/-- Makes `count` objects and lists them after those already made. -/
def makeElements (make : WorldM ObjectId) :
    (count : Nat) → (made : Array (Option ObjectId)) → WorldM (Array (Option ObjectId))
  | 0, made => return made
  | count + 1, made => do
      let element ← make
      makeElements make count (made.push (some element))

/-- Allocates a tree of arrays with the given lengths. An array comes before its elements. -/
def allocateNested : List Nat → ClassId → WorldM ObjectId
  | [], _ => throw (.internal .noLengthLeft)
  | length :: rest, id => do
      let type := (← get).type id
      match type.kind with
      | .referenceArray component _ _ =>
          if rest.isEmpty then allocateReferences id length
          else
            let array ← allocateReferences id length
            let elements ← makeElements (allocateNested rest component) length #[]
            modify fun world => world.setObject array { type := id, body := .references elements }
            return array
      | .primitiveArray _ _ =>
          if rest.isEmpty then allocatePrimitives id length
          else throw (.internal (.dimensionsLeft type.name rest.length))
      | .declared _ => throw (.internal (.dimensionsLeft type.name rest.length))

end World

namespace FrameM

/-- Pops an array, which must not be null. -/
def popArray : FrameM Client ObjectId := do
  match ← onStack OperandStack.popReference with
  | some array => return array
  | none => throw (.runtime (.nullPointer .accessElement))

/-- Pops an index and a primitive array and pushes the element there. -/
def loadElement (type : CellType) : FrameM Client Unit := do
  let index ← onStack OperandStack.popInt
  let array ← popArray
  let world ← world
  let cell ← ofExcept ((world.object array).getElement (world.typeOf array).name type index)
  onStack (OperandStack.push (OperandStack.ofCell type cell))

/-- Pops a value, an index and a primitive array and stores the value there. -/
def storeElement (type : CellType) : FrameM Client Unit := do
  let cell ← onStack (OperandStack.popCell type)
  let index ← onStack OperandStack.popInt
  let array ← popArray
  onWorld (World.change fun world => world.putElement array type index cell)

/-- Pops an index and a reference array and pushes the element there. -/
def loadReference : FrameM Client Unit := do
  let index ← onStack OperandStack.popInt
  let array ← popArray
  let world ← world
  let element ← ofExcept ((world.object array).getReference (world.typeOf array).name index)
  onStack (OperandStack.push (.reference element))

/-- Whether a reference may be stored into an array. -/
def checkStore (world : World) (array : ObjectId) : Option ObjectId → Except Error Unit
  | none => .ok ()
  | some element =>
      match (world.typeOf array).component? with
      | none => .error (.runtime (.notReferenceArray (world.typeOf array).name))
      | some component =>
          if world.isAssignable (world.object element).type component then .ok ()
          else
            .error (.runtime (.arrayStore (world.typeOf element).name (world.typeOf array).name))

/-- Pops a reference, an index and a reference array and stores the reference there. -/
def storeReference : FrameM Client Unit := do
  let element ← onStack OperandStack.popReference
  let index ← onStack OperandStack.popInt
  let array ← popArray
  ofExcept (checkStore (← world) array element)
  onWorld (World.change fun world => world.putReference array index element)

/-- Pops an array and pushes its length. -/
def arrayLength : FrameM Client Unit := do
  match ← onStack OperandStack.popReference with
  | none => throw (.runtime (.nullPointer .readLength))
  | some array =>
      let world ← world
      match (world.object array).length? with
      | some length => onStack (OperandStack.push (.int (Int32.ofNat length)))
      | none => throw (.runtime (.notArray (world.typeOf array).name))

/-- An int from the stack as the length of an array. -/
def popLength : FrameM Client Nat := do
  match World.arrayLength (← onStack OperandStack.popInt) with
  | .ok length => return length
  | .error exception => throw (.runtime exception)

/-- Pops a length and pushes a new primitive array. -/
def newPrimitiveArray (number : Int32) : FrameM Client Unit := do
  let length ← popLength
  match World.primitiveOfNumber? number with
  | none => throw (.internal (.invalidArrayType number))
  | some element =>
      let type ← onWorld (World.primitiveArrayClass (.primitive element))
      let array ← onWorld (World.allocatePrimitives type length)
      onStack (OperandStack.push (.reference (some array)))

/-- Pops a length and pushes a new array of objects of a class. -/
def newReferenceArray (current : ClassId) (index : UInt16) : FrameM Client Unit := do
  let length ← popLength
  let component ← onWorld (World.resolveClass current index)
  let type ← onWorld (World.arrayClassOf component)
  let array ← onWorld (World.allocateReferences type length)
  onStack (OperandStack.push (.reference (some array)))

/-- Pops ints, the last first. -/
def popInts : (count : Nat) → (popped : List Int32) → FrameM Client (List Int32)
  | 0, popped => return popped
  | count + 1, popped => do
      let value ← onStack OperandStack.popInt
      popInts count (value :: popped)

/-- Pops a length for each dimension of an array class and pushes a new tree of arrays. All lengths
are checked before anything is allocated. -/
def newNestedArray (current : ClassId) (index : UInt16) (dimensions : UInt8) :
    FrameM Client Unit := do
  let id ← onWorld (World.resolveClass current index)
  let type := (← world).type id
  if !type.isArray ∨ type.dimension ≠ dimensions.toNat then
    throw (.linkage (.dimensionMismatch dimensions.toNat type.name type.dimension))
  else
    let ints ← popInts dimensions.toNat []
    match ints.mapM World.arrayLength with
    | .error exception => throw (.runtime exception)
    | .ok lengths =>
        let array ← onWorld (World.allocateNested lengths id)
        onStack (OperandStack.push (.reference (some array)))

end FrameM
end JavaMachine
