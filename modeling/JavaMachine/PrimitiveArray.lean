import JavaMachine.ValueType

/-!
# Primitive arrays

The elements of primitive arrays, kept in cells as wide as their type, and the accesses to them. An
access asks for one type of cell; byte cells serve boolean arrays as well, which keep bit 0 alone.
-/

namespace JavaMachine

/-- The type of cell for which an array access asks. -/
inductive CellType where
  | byte | char | short | int | long | float | double
  deriving DecidableEq, Repr, Inhabited

namespace CellType

/-- The content of a cell; floating-point numbers are bit patterns. -/
@[reducible] def Cell : CellType → Type
  | byte => Int8
  | char => UInt16
  | short => Int16
  | int => Int32
  | long => Int64
  | float => UInt32
  | double => UInt64

/-- The name of the cell type in error messages. -/
def name : CellType → String
  | byte => "i8"
  | char => "u16"
  | short => "i16"
  | int => "i32"
  | long => "i64"
  | float => "f32"
  | double => "f64"

end CellType

/-- The elements of a primitive array. -/
inductive PrimitiveArray where
  | boolean (cells : Array Int8)
  | byte (cells : Array Int8)
  | char (cells : Array UInt16)
  | short (cells : Array Int16)
  | int (cells : Array Int32)
  | long (cells : Array Int64)
  | float (cells : Array UInt32)
  | double (cells : Array UInt64)
  deriving DecidableEq, Repr

namespace PrimitiveArray

/-- An array of zeros. -/
def zeroed (element : Primitive) (length : Nat) : PrimitiveArray :=
  match element with
  | .boolean => boolean (Array.replicate length 0)
  | .byte => byte (Array.replicate length 0)
  | .char => char (Array.replicate length 0)
  | .short => short (Array.replicate length 0)
  | .int => int (Array.replicate length 0)
  | .long => long (Array.replicate length 0)
  | .float => float (Array.replicate length 0)
  | .double => double (Array.replicate length 0)

/-- The number of elements. -/
def size : PrimitiveArray → Nat
  | boolean cells | byte cells => cells.size
  | char cells => cells.size
  | short cells => cells.size
  | int cells => cells.size
  | long cells => cells.size
  | float cells => cells.size
  | double cells => cells.size

/-- The type of the elements. -/
def element : PrimitiveArray → Primitive
  | boolean _ => .boolean
  | byte _ => .byte
  | char _ => .char
  | short _ => .short
  | int _ => .int
  | long _ => .long
  | float _ => .float
  | double _ => .double

/-- The cell at a place; none where the array has no such cells. -/
def read? : PrimitiveArray → (type : CellType) → Nat → Option type.Cell
  | boolean cells, .byte, place => cells[place]?
  | byte cells, .byte, place => cells[place]?
  | char cells, .char, place => cells[place]?
  | short cells, .short, place => cells[place]?
  | int cells, .int, place => cells[place]?
  | long cells, .long, place => cells[place]?
  | float cells, .float, place => cells[place]?
  | double cells, .double, place => cells[place]?
  | _, _, _ => none

/-- The array with another cell at a place; none where the array has no such cells. -/
def write? (array : PrimitiveArray) (type : CellType) (place : Nat) (cell : type.Cell) :
    Option PrimitiveArray :=
  if place < array.size then
    match array, type, cell with
    | boolean cells, .byte, cell => some (boolean (cells.setIfInBounds place (cell &&& 1)))
    | byte cells, .byte, cell => some (byte (cells.setIfInBounds place cell))
    | char cells, .char, cell => some (char (cells.setIfInBounds place cell))
    | short cells, .short, cell => some (short (cells.setIfInBounds place cell))
    | int cells, .int, cell => some (int (cells.setIfInBounds place cell))
    | long cells, .long, cell => some (long (cells.setIfInBounds place cell))
    | float cells, .float, cell => some (float (cells.setIfInBounds place cell))
    | double cells, .double, cell => some (double (cells.setIfInBounds place cell))
    | _, _, _ => none
  else none

end PrimitiveArray
end JavaMachine
