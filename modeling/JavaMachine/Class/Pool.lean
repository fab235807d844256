import JavaMachine.Class.Member
import JavaMachine.Table

/-!
# Resolved constants

Each kind of lookup in a constant pool accepts one kind of entry and gives one kind of result. A
pool remembers, for each kind and index, the result of the first successful lookup.
-/

namespace JavaMachine

/-- The kinds of lookup. -/
inductive ConstantKind where
  | classRef | string | method | interfaceMethod | field | nameAndType | utf8 | int | float | long
  | double
  deriving DecidableEq, Repr, Inhabited

namespace ConstantKind

/-- Every kind of lookup. -/
def all : List ConstantKind :=
  [classRef, string, method, interfaceMethod, field, nameAndType, utf8, int, float, long, double]

/-- Name of the kind of lookup. -/
def name : ConstantKind → String
  | classRef => "Class"
  | string => "String"
  | method => "Method"
  | interfaceMethod => "InterfaceMethod"
  | field => "Field"
  | nameAndType => "NameAndType"
  | utf8 => "Utf8"
  | int => "Int"
  | float => "Float"
  | long => "Long"
  | double => "Double"

/-- The kind of entry that a lookup accepts. -/
def tag : ConstantKind → ConstantTag
  | classRef => .classRef
  | string => .string
  | method => .methodRef
  | interfaceMethod => .interfaceMethodRef
  | field => .fieldRef
  | nameAndType => .nameAndType
  | utf8 => .utf8
  | int => .integer
  | float => .float
  | long => .long
  | double => .double

/-- What a lookup finds. A reference to a missing method or field resolves, to none. -/
@[reducible] def Meaning : ConstantKind → Type
  | classRef => ClassId
  | string => ObjectId
  | method => Option Method
  | interfaceMethod => Option Method
  | field => Option FieldSlot
  | nameAndType => String × String
  | utf8 => String
  | int => Int32
  | float => UInt32
  | long => Int64
  | double => UInt64

end ConstantKind

/-- The results of earlier lookups, by pool index. -/
structure ResolvedPool where
  classes : Table UInt16 ClassId := {}
  strings : Table UInt16 ObjectId := {}
  methods : Table UInt16 (Option Method) := {}
  interfaceMethods : Table UInt16 (Option Method) := {}
  fields : Table UInt16 (Option FieldSlot) := {}
  namesAndTypes : Table UInt16 (String × String) := {}
  texts : Table UInt16 String := {}
  ints : Table UInt16 Int32 := {}
  floats : Table UInt16 UInt32 := {}
  longs : Table UInt16 Int64 := {}
  doubles : Table UInt16 UInt64 := {}
  deriving Inhabited

namespace ResolvedPool

/-- The remembered results of one kind. -/
def results (pool : ResolvedPool) : (kind : ConstantKind) → Table UInt16 kind.Meaning
  | .classRef => pool.classes
  | .string => pool.strings
  | .method => pool.methods
  | .interfaceMethod => pool.interfaceMethods
  | .field => pool.fields
  | .nameAndType => pool.namesAndTypes
  | .utf8 => pool.texts
  | .int => pool.ints
  | .float => pool.floats
  | .long => pool.longs
  | .double => pool.doubles

/-- Remembers a result. -/
def remember (pool : ResolvedPool) (index : UInt16) :
    (kind : ConstantKind) → kind.Meaning → ResolvedPool
  | .classRef, result => { pool with classes := pool.classes.insert index result }
  | .string, result => { pool with strings := pool.strings.insert index result }
  | .method, result => { pool with methods := pool.methods.insert index result }
  | .interfaceMethod, result =>
      { pool with interfaceMethods := pool.interfaceMethods.insert index result }
  | .field, result => { pool with fields := pool.fields.insert index result }
  | .nameAndType, result => { pool with namesAndTypes := pool.namesAndTypes.insert index result }
  | .utf8, result => { pool with texts := pool.texts.insert index result }
  | .int, result => { pool with ints := pool.ints.insert index result }
  | .float, result => { pool with floats := pool.floats.insert index result }
  | .long, result => { pool with longs := pool.longs.insert index result }
  | .double, result => { pool with doubles := pool.doubles.insert index result }

/-- The remembered result of a lookup. -/
def find? (pool : ResolvedPool) (kind : ConstantKind) (index : UInt16) : Option kind.Meaning :=
  (pool.results kind).find? index

/-- A result is remembered for its own kind and index only. -/
theorem find?_remember (pool : ResolvedPool) (kind other : ConstantKind) (index place : UInt16)
    (result : kind.Meaning) :
    (pool.remember index kind result).find? other place =
      if same : kind = other ∧ index = place then some (same.1 ▸ result)
      else pool.find? other place := by
  cases kind <;> cases other <;> simp [find?, results, remember]

end ResolvedPool
end JavaMachine
