import JavaMachine.Class.FieldLayout
import JavaMachine.Class.MethodTables
import JavaMachine.Class.Pool
import JavaMachine.Value

/-!
# Classes

A class is declared by a class file or is the array class over a type. What linking computes is
attached to a declared class once; its state, its static values, its resolved constants and its
mirror change later.
-/

namespace JavaMachine

/-- What linking computes for a declared class. -/
structure Linkage where
  superclass : Option ClassId
  /-- The declared interfaces, in order. -/
  interfaces : List ClassId
  /-- One more than the greatest height among the superclass and the declared interfaces. -/
  height : Nat
  /-- The declared interfaces, those of the superclass and their superinterfaces, by name. -/
  allInterfaces : Table String ClassId
  methods : MethodTables
  fields : FieldLayout
  attributes : ClassAttributes
  deriving Inhabited

/-- The part of a class that comes from a class file. The pool is there once it is attached. -/
structure DeclaredClass where
  file : ClassFile
  linkage : Option Linkage := none
  pool : Option ResolvedPool := none
  /-- The values of the static fields, by offset. -/
  static : Array Value := #[]
  deriving Inhabited

/-- What every array class inherits. -/
structure ArraySupertypes where
  superclass : ClassId
  interfaces : List ClassId
  deriving Inhabited

/-- The kinds of classes. -/
inductive ClassKind where
  | declared (body : DeclaredClass)
  | primitiveArray (element : Primitive) (supertypes : ArraySupertypes)
  | referenceArray (component : ClassId) (dimension : Nat) (supertypes : ArraySupertypes)
  deriving Inhabited

namespace ClassKind

/-- Name of the kind in error messages. -/
def name : ClassKind → String
  | declared _ => "InstanceClass"
  | primitiveArray _ _ => "TypeArrayClass"
  | referenceArray _ _ _ => "ObjectArrayClass"

end ClassKind

/-- A loaded type. -/
structure Class where
  name : String
  flags : ClassFlags
  /-- The loader that defined the class. -/
  loader : LoaderId
  state : ClassState
  /-- The object that stands for the class. -/
  mirror : Option ObjectId := none
  kind : ClassKind

/-- What an identity leads to that no class has: a type that cannot be used. -/
instance : Inhabited Class where
  default :=
    { name := "", flags := default, loader := default, state := .initializationError,
      kind := .declared default }

namespace Class

/-- A class as its file declares it, before it is linked. -/
def allocate (file : ClassFile) (loader : LoaderId) : Except LinkageError Class :=
  match file.name? with
  | some name =>
      .ok { name, flags := file.flags, loader, state := .allocated, kind := .declared { file } }
  | none => .error .invalidThisClass

/-- Its part from a class file; none for array classes. -/
def declared? (type : Class) : Option DeclaredClass :=
  match type.kind with
  | .declared body => some body
  | _ => none

/-- What linking computed, where the class is a linked declared class. -/
def linkage? (type : Class) : Option Linkage := type.declared?.bind DeclaredClass.linkage

def isArray (type : Class) : Bool := type.declared?.isNone

/-- Whether the class may be handed out: an array class, or a declared class once it is linked. -/
def isUsable (type : Class) : Bool := type.isArray || type.linkage?.isSome

def isInterface (type : Class) : Bool := type.flags.isInterface
def isFinal (type : Class) : Bool := type.flags.isFinal
def isAbstract (type : Class) : Bool := type.flags.isAbstract

/-- The superclass, once it is known. -/
def superclass? (type : Class) : Option ClassId :=
  match type.kind with
  | .declared body => body.linkage.bind Linkage.superclass
  | .primitiveArray _ supertypes | .referenceArray _ _ supertypes => some supertypes.superclass

/-- The declared interfaces, once they are known. -/
def interfaces (type : Class) : List ClassId :=
  match type.kind with
  | .declared body => (body.linkage.map Linkage.interfaces).getD []
  | .primitiveArray _ supertypes | .referenceArray _ _ supertypes => supertypes.interfaces

/-- The number of array dimensions. -/
def dimension (type : Class) : Nat :=
  match type.kind with
  | .declared _ => 0
  | .primitiveArray _ _ => 1
  | .referenceArray _ dimension _ => dimension

/-- The type one dimension below a reference array. -/
def component? (type : Class) : Option ClassId :=
  match type.kind with
  | .referenceArray component _ _ => some component
  | _ => none

/-- The name of the array class over the class. -/
def arrayName (type : Class) : String :=
  if type.isArray then "[" ++ type.name else "[L" ++ type.name ++ ";"

/-- The interface with a name among all interfaces of a linked class. -/
def interface? (type : Class) (name : String) : Option ClassId :=
  type.linkage?.bind fun linkage => linkage.allInterfaces.find? name

/-- The tables of a linked class; empty ones before. -/
def methods (type : Class) : MethodTables := (type.linkage?.map Linkage.methods).getD {}

/-- The layout of a linked class; an empty one before. -/
def fields (type : Class) : FieldLayout := (type.linkage?.map Linkage.fields).getD {}

/-- A declared method. -/
def declaredMethod? (type : Class) (name descriptor : String) : Option Method :=
  type.methods.declared.find? (methodKey name descriptor)

/-- The method that dispatch by a name and a descriptor runs. -/
def virtualMethod? (type : Class) (name descriptor : String) : Option Method :=
  type.methods.virtual.find? (methodKey name descriptor)

/-- A declared private or final method or constructor. -/
def nonvirtualMethod? (type : Class) (name descriptor : String) : Option Method :=
  type.methods.nonvirtual.find? (methodKey name descriptor)

/-- A declared static method. -/
def staticMethod? (type : Class) (name descriptor : String) : Option Method :=
  type.methods.static.find? (methodKey name descriptor)

/-- An instance field, by the name of the class that declares it. -/
def instanceField? (type : Class) (owner name descriptor : String) : Option FieldSlot :=
  FieldLayout.findSlot? type.fields.slots (fieldKey owner name descriptor)

/-- A static field, by the name of the class that declares it. -/
def staticField? (type : Class) (owner name descriptor : String) : Option FieldSlot :=
  type.fields.static.find? (fieldKey owner name descriptor)

/-- A declared field, instance fields first. -/
def declaredField? (type : Class) (name descriptor : String) : Option FieldSlot :=
  (type.instanceField? type.name name descriptor).or (type.staticField? type.name name descriptor)

end Class
end JavaMachine
