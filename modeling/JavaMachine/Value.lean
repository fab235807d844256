import JavaMachine.Identifier
import JavaMachine.ValueType

/-!
# Values

What a field, an array element or an operand stack holds. Floating-point numbers are bit patterns,
so equality of values tells patterns apart and compares references by identity.
-/

namespace JavaMachine

/-- A value; the five int-like types share one constructor. -/
inductive Value where
  | int (value : Int32)
  | float (bits : UInt32)
  | long (value : Int64)
  | double (bits : UInt64)
  | reference (object : Option ObjectId)
  deriving DecidableEq, Repr

namespace Value

/-- The reference to no object. -/
def null : Value := reference none

instance : Inhabited Value := ⟨null⟩

/-- How the value is kept. -/
def shape : Value → Shape
  | int _ => .int
  | float _ => .float
  | long _ => .long
  | double _ => .double
  | reference _ => .reference

/-- The value with which storage of a type starts. -/
def default (type : ValueType) : Value :=
  match type.shape? with
  | some .int => int 0
  | some .float => float 0
  | some .long => long 0
  | some .double => double 0
  | some .reference | none => null

/-- Whether the value has the shape of a type. -/
def fits (value : Value) (type : ValueType) : Bool := type.shape? = some value.shape

/-- Cuts an int down to the range of a type; other values stay as they are. -/
def narrow (type : ValueType) : Value → Value
  | int value => int (type.narrow value)
  | value => value

end Value
end JavaMachine
