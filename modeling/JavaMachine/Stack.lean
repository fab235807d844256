import JavaMachine.Error
import JavaMachine.Class.Member
import JavaMachine.PrimitiveArray
import JavaMachine.Value

/-!
# The operand stack

A stack of values, the top first; every value takes one slot. A pop that asks for a shape takes the
value off even when its shape is another.
-/

namespace JavaMachine

/-- The values on an operand stack, the top first. -/
abbrev OperandStack := List Value

/-- A computation on operand stacks that may fail; a failure keeps the changes made before it. -/
abbrev StackM := ExceptT Error (StateM OperandStack)

namespace OperandStack

/-- Puts a value on top. -/
def push (value : Value) : StackM Unit := modify (value :: ·)

/-- Takes the top value off. -/
def pop : StackM Value := do
  match (← get) with
  | value :: rest =>
      set rest
      return value
  | [] => throw (.internal .stackUnderflow)

/-- Pops an int. -/
def popInt : StackM Int32 := do
  match (← pop) with
  | .int value => return value
  | other => throw (.internal (.wrongOperand .int other.shape))

/-- Pops the bits of a float. -/
def popFloat : StackM UInt32 := do
  match (← pop) with
  | .float bits => return bits
  | other => throw (.internal (.wrongOperand .float other.shape))

/-- Pops a long. -/
def popLong : StackM Int64 := do
  match (← pop) with
  | .long value => return value
  | other => throw (.internal (.wrongOperand .long other.shape))

/-- Pops the bits of a double. -/
def popDouble : StackM UInt64 := do
  match (← pop) with
  | .double bits => return bits
  | other => throw (.internal (.wrongOperand .double other.shape))

/-- Pops a reference. -/
def popReference : StackM (Option ObjectId) := do
  match (← pop) with
  | .reference object => return object
  | other => throw (.internal (.wrongOperand .reference other.shape))

/-- Pops a value of a shape. -/
def popShape : Shape → StackM Value
  | .int => .int <$> popInt
  | .float => .float <$> popFloat
  | .long => .long <$> popLong
  | .double => .double <$> popDouble
  | .reference => .reference <$> popReference

/-- Pops a value of a type and narrows it to the type. -/
def popTyped (type : ValueType) : StackM Value :=
  match type.shape? with
  | some shape => return (← popShape shape).narrow type
  | none => throw (.internal .voidOperand)

/-- Pops a value for a cell of a primitive array; an int loses the bits that have no room. -/
def popCell : (type : CellType) → StackM type.Cell
  | .byte => return (← popInt).toInt8
  | .char => return (← popInt).toUInt32.toUInt16
  | .short => return (← popInt).toInt16
  | .int => popInt
  | .long => popLong
  | .float => popFloat
  | .double => popDouble

/-- The value on the stack for the content of a cell. -/
def ofCell : (type : CellType) → type.Cell → Value
  | .byte, cell => .int cell.toInt32
  | .char, cell => .int cell.toUInt32.toInt32
  | .short, cell => .int cell.toInt32
  | .int, cell => .int cell
  | .long, cell => .long cell
  | .float, cell => .float cell
  | .double, cell => .double cell

/-- Pops values of the given types, the last type first, in front of those already popped. -/
def popTypedAll : (reversed : List FieldType) → (popped : List Value) → StackM (List Value)
  | [], popped => return popped
  | type :: rest, popped => do
      let value ← popTyped type.valueType
      popTypedAll rest (value :: popped)

/-- Pops the arguments of a method: its parameters, and below them the receiver of an instance
method, which must not be null. The receiver comes first in the result. -/
def popArguments (method : Method) : StackM (List Value) := do
  let arguments ← popTypedAll method.type.parameters.reverse []
  if method.isStatic then return arguments
  else
    match ← popReference with
    | some receiver => return .reference (some receiver) :: arguments
    | none => throw (.runtime (.nullReceiver method.label))

/-- Pushes what a method returned, narrowed to its result type. -/
def pushResult (method : Method) (result : Option Value) : StackM Unit :=
  match method.type.resultType, result with
  | .void, none => return
  | .void, some value => throw (.internal (.voidReturned method.label value.shape))
  | _, none => throw (.internal (.nothingReturned method.label))
  | type, some value =>
      if value.fits type then push (value.narrow type)
      else throw (.internal (.wrongReturned method.label value.shape))

end OperandStack
end JavaMachine
