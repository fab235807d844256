import JavaMachine.ClassFile.Attributes
import JavaMachine.Descriptor
import JavaMachine.Error
import JavaMachine.Identifier

/-!
# Methods and fields

Members of linked classes. Tables find a method under its name and descriptor, joined by a blank,
and a field under the name of its class as well.
-/

namespace JavaMachine

/-- The key under which tables hold a method. -/
def methodKey (name descriptor : String) : String := name ++ " " ++ descriptor

/-- The key under which layouts hold a field. -/
def fieldKey (owner name descriptor : String) : String := owner ++ " " ++ name ++ " " ++ descriptor

/-- A method, with the class that declares it. -/
structure Method where
  owner : ClassId
  ownerName : String
  name : String
  descriptor : String
  type : MethodType
  flags : MethodFlags
  code : Option Code
  deriving DecidableEq, Repr, Inhabited

namespace Method

/-- Key of the method in tables. -/
def key (method : Method) : String := methodKey method.name method.descriptor

/-- How messages name the method. -/
def label (method : Method) : MethodLabel := ⟨method.ownerName, method.name, method.descriptor⟩

def isStatic (method : Method) : Bool := method.flags.isStatic
def isFinal (method : Method) : Bool := method.flags.isFinal
def isPrivate (method : Method) : Bool := method.flags.isPrivate
def isAbstract (method : Method) : Bool := method.flags.isAbstract
def isNative (method : Method) : Bool := method.flags.isNative

/-- Whether the method takes part in dynamic dispatch. -/
def isVirtual (method : Method) : Bool :=
  !method.isStatic && !method.isPrivate && method.name ≠ WellKnown.constructor

end Method

/-- A field, with the class that declares it. -/
structure Field where
  owner : ClassId
  ownerName : String
  name : String
  descriptor : String
  type : FieldType
  flags : FieldFlags
  /-- The pool index of the constant with which a static final field starts. -/
  constant : Option UInt16
  deriving DecidableEq, Repr, Inhabited

namespace Field

/-- Key of the field in tables. -/
def key (field : Field) : String := fieldKey field.ownerName field.name field.descriptor

def valueType (field : Field) : ValueType := field.type.valueType

def isStatic (field : Field) : Bool := field.flags.isStatic
def isFinal (field : Field) : Bool := field.flags.isFinal

end Field

/-- A field with its place: among the fields of an instance, or among the static values of its
class. -/
structure FieldSlot where
  offset : Nat
  field : Field
  deriving DecidableEq, Repr, Inhabited

end JavaMachine
