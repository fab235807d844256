/-!
# Value types

The types of values, as far as storage is concerned. The five int-like primitives share one 32-bit
shape; they differ in the range to which a stored int is narrowed.
-/

namespace JavaMachine

/-- A primitive type. -/
inductive Primitive where
  | boolean | byte | char | short | int | long | float | double
  deriving DecidableEq, Repr, Inhabited

namespace Primitive

/-- Every primitive type. -/
def all : List Primitive := [boolean, byte, char, short, int, long, float, double]

/-- Name of a primitive type. -/
def name : Primitive → String
  | boolean => "Boolean"
  | byte => "Byte"
  | char => "Char"
  | short => "Short"
  | int => "Int"
  | long => "Long"
  | float => "Float"
  | double => "Double"

/-- The letter that stands for the type in descriptors. -/
def letter : Primitive → Char
  | boolean => 'Z'
  | byte => 'B'
  | char => 'C'
  | short => 'S'
  | int => 'I'
  | long => 'J'
  | float => 'F'
  | double => 'D'

/-- The type that a descriptor letter stands for. -/
def ofLetter? : Char → Option Primitive
  | 'Z' => some boolean
  | 'B' => some byte
  | 'C' => some char
  | 'S' => some short
  | 'I' => some int
  | 'J' => some long
  | 'F' => some float
  | 'D' => some double
  | _ => none

/-- Whether values of the type are kept as 32-bit ints. -/
def isIntLike : Primitive → Bool
  | long | float | double => false
  | _ => true

/-- Cuts an int down to the range of an int-like type: a boolean keeps bit 0, bytes and shorts keep
their sign, chars have none. -/
def narrow (type : Primitive) (value : Int32) : Int32 :=
  match type with
  | boolean => value &&& 1
  | byte => value.toInt8.toInt32
  | short => value.toInt16.toInt32
  | char => value.toUInt32.toUInt16.toUInt32.toInt32
  | _ => value

end Primitive

/-- How a value is kept. -/
inductive Shape where
  | int | float | long | double | reference
  deriving DecidableEq, Repr, Inhabited

namespace Shape

/-- Name of a shape. -/
def name : Shape → String
  | int => "int"
  | float => "float"
  | long => "long"
  | double => "double"
  | reference => "reference"

end Shape

/-- The type of a value as far as its storage is concerned, or the absence of a value. -/
inductive ValueType where
  | void
  | primitive (type : Primitive)
  | object
  | array
  deriving DecidableEq, Repr, Inhabited

namespace ValueType

/-- Every value type. -/
def all : List ValueType :=
  [void, primitive .byte, primitive .boolean, primitive .char, primitive .short, primitive .int,
    primitive .float, primitive .long, primitive .double, object, array]

/-- Name of a value type. -/
def name : ValueType → String
  | void => "Void"
  | primitive type => type.name
  | object => "Object"
  | array => "Array"

/-- Whether values of the type are ints on the stack. -/
def isIntLike : ValueType → Bool
  | primitive type => type.isIntLike
  | _ => false

/-- Whether values of the type are references. -/
def isReference : ValueType → Bool
  | object | array => true
  | _ => false

/-- How values of the type are kept. -/
def shape? : ValueType → Option Shape
  | void => none
  | primitive .float => some .float
  | primitive .long => some .long
  | primitive .double => some .double
  | primitive _ => some .int
  | object | array => some .reference

/-- The primitive type, of a primitive value type. -/
def primitive? : ValueType → Option Primitive
  | primitive type => some type
  | _ => none

/-- Cuts an int down to the range of an int-like type; other types leave it alone. -/
def narrow : ValueType → Int32 → Int32
  | primitive type, value => type.narrow value
  | _, value => value

end ValueType
end JavaMachine
