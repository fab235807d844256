import JavaMachine.ValueType

/-!
# Descriptors

The written types of fields and methods. A class name ends at the first semicolon and is otherwise
unrestricted; no descriptor is the beginning of another.
-/

namespace JavaMachine

/-- The type of a field, of a parameter or of a result. -/
inductive FieldType where
  | primitive (type : Primitive)
  | object (className : String)
  | array (component : FieldType)
  deriving DecidableEq, Repr, Inhabited

namespace FieldType

/-- The value type of values of the type. -/
def valueType : FieldType → ValueType
  | primitive type => .primitive type
  | object _ => .object
  | array _ => .array

/-- Whether values of the type are 64 bits wide. -/
def isWide : FieldType → Bool
  | primitive .long | primitive .double => true
  | _ => false

/-- Whether the type is primitive. -/
def isPrimitive : FieldType → Bool
  | primitive _ => true
  | _ => false

/-- The number of array dimensions. -/
def dimension : FieldType → Nat
  | array component => component.dimension + 1
  | _ => 0

/-- The characters of the descriptor. -/
def chars : FieldType → List Char
  | primitive type => [type.letter]
  | object className => 'L' :: className.toList ++ [';']
  | array component => '[' :: component.chars

/-- The written form of the type. -/
def descriptor (type : FieldType) : String := String.ofList type.chars

/-- The name by which the class of the type is loaded. -/
def loadName : FieldType → String
  | object className => className
  | other => other.descriptor

/-- Reads a class name and the semicolon after it. -/
def readClassName : List Char → Option (List Char × List Char)
  | [] => none
  | char :: rest =>
      if char = ';' then some ([], rest)
      else (readClassName rest).map fun (name, rest) => (char :: name, rest)

/-- Reads a type from the front of a text. -/
def read : List Char → Option (FieldType × List Char)
  | [] => none
  | char :: rest =>
      if char = '[' then (read rest).map fun (component, rest) => (array component, rest)
      else if char = 'L' then
        (readClassName rest).map fun (name, rest) => (object (String.ofList name), rest)
      else (Primitive.ofLetter? char).map fun type => (primitive type, rest)

/-- The type written by `text`. -/
def ofDescriptor? (text : String) : Option FieldType :=
  match read text.toList with
  | some (type, []) => some type
  | _ => none

end FieldType

/-- The type of a result; none for methods without one. -/
abbrev ReturnType := Option FieldType

namespace ReturnType

/-- The value type of results, void where there is none. -/
def valueType : ReturnType → ValueType
  | some type => type.valueType
  | none => .void

/-- The characters of the descriptor, `V` where there is no result. -/
def chars : ReturnType → List Char
  | some type => type.chars
  | none => ['V']

/-- Reads a result type from the front of a text. -/
def read (text : List Char) : Option (ReturnType × List Char) :=
  match FieldType.read text with
  | some (type, rest) => some (some type, rest)
  | none =>
      match text with
      | 'V' :: rest => some (none, rest)
      | _ => none

end ReturnType

/-- The parameter types and the result type of a method. -/
structure MethodType where
  parameters : List FieldType
  result : ReturnType
  deriving DecidableEq, Repr, Inhabited

namespace MethodType

/-- The value type of results. -/
def resultType (type : MethodType) : ValueType := type.result.valueType

/-- The characters of the descriptor. -/
def chars (type : MethodType) : List Char :=
  '(' :: type.parameters.flatMap FieldType.chars ++ ')' :: type.result.chars

/-- The written form of the type. -/
def descriptor (type : MethodType) : String := String.ofList type.chars

/-- Reads types from the front of a text as long as there are any, at most `limit` of them. -/
def readTypes : Nat → List Char → List FieldType × List Char
  | 0, text => ([], text)
  | limit + 1, text =>
      match FieldType.read text with
      | none => ([], text)
      | some (type, rest) =>
          let (types, rest) := readTypes limit rest
          (type :: types, rest)

/-- The type written by `text`. Each parameter takes a character at least, so the length of the
text is no limit to them. -/
def ofDescriptor? (text : String) : Option MethodType :=
  match text.toList with
  | '(' :: rest =>
      match readTypes rest.length rest with
      | (parameters, ')' :: rest) =>
          match ReturnType.read rest with
          | some (result, []) => some ⟨parameters, result⟩
          | _ => none
      | _ => none
  | _ => none

end MethodType
end JavaMachine
