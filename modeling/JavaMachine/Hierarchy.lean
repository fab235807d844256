import JavaMachine.World

/-!
# The hierarchy of types

Walks along the links from a class to its superclass, to its declared interfaces and, for arrays, to
the type below. Each link to a supertype leads to a class of smaller height and each link to a
component to a class of smaller dimension, which is how far a walk goes.
-/

namespace JavaMachine.World

/-- The height of a linked declared class. -/
def linkedHeight (world : World) (id : ClassId) : Nat :=
  ((world.type id).linkage?.map Linkage.height).getD 0

/-- The height of a class above the root of its hierarchy; an array class stands above everything it
inherits. -/
def height (world : World) (id : ClassId) : Nat :=
  match (world.type id).kind with
  | .declared _ => world.linkedHeight id
  | .primitiveArray _ supertypes | .referenceArray _ _ supertypes =>
      world.linkedHeight supertypes.superclass + 1

/-- At most `limit` superclasses of a class, after the class itself. -/
def superclassesWithin (world : World) : (limit : Nat) → ClassId → List ClassId
  | 0, id => [id]
  | limit + 1, id =>
      id :: match (world.type id).superclass? with
        | some superclass => superclassesWithin world limit superclass
        | none => []

/-- The class and its superclasses, nearest first. -/
def superclasses (world : World) (id : ClassId) : List ClassId :=
  world.superclassesWithin (world.height id) id

/-- Whether a class is `target` or one of its subclasses. -/
def isSubclass (world : World) (id target : ClassId) : Bool :=
  (world.superclasses id).contains target

/-- Whether the class is one of those that arrays inherit from by their names. -/
def isArraySupertype (type : Class) : Bool :=
  if type.isInterface then
    type.name = WellKnown.cloneableClass ∨ type.name = WellKnown.serializableClass
  else type.name = WellKnown.objectClass

/-- Whether a class is `target` or implements it. -/
def implements (world : World) (id target : ClassId) : Bool :=
  id = target ||
    if (world.type id).isArray then isArraySupertype (world.type target)
    else (world.type id).interface? (world.type target).name = some target

/-- Assignability of classes that have at most `limit` dimensions. -/
def isAssignableWithin (world : World) : (limit : Nat) → (source target : ClassId) → Bool
  | limit, source, target =>
      source = target ||
        match (world.type source).kind, (world.type target).kind with
        | .declared _, _ =>
            if (world.type target).isInterface then world.implements source target
            else world.isSubclass source target
        | .primitiveArray element _, .primitiveArray other _ => element = other
        | .referenceArray component _ _, .referenceArray other _ _ =>
            match limit with
            | 0 => false
            | limit + 1 => isAssignableWithin world limit component other
        | _, .declared _ => isArraySupertype (world.type target)
        | _, _ => false

/-- Whether an object of class `source` may stand where one of class `target` is expected. -/
def isAssignable (world : World) (source target : ClassId) : Bool :=
  world.isAssignableWithin (world.type source).dimension source target

/-- `seen`, last first, after the declared interfaces of a class and theirs, depth first, and then
those of the superclass. No interface is entered twice. -/
def interfacesAfter (world : World) : (limit : Nat) → ClassId → (seen : List ClassId) → List ClassId
  | 0, _, seen => seen
  | limit + 1, id, seen =>
      let seen := (world.type id).interfaces.foldl (fun seen interface =>
        if seen.contains interface then seen
        else interfacesAfter world limit interface (interface :: seen)) seen
      match (world.type id).superclass? with
      | some superclass => interfacesAfter world limit superclass seen
      | none => seen

/-- The interfaces that a class implements, each once, in the order in which a walk meets them. -/
def interfaceOrder (world : World) (id : ClassId) : List ClassId :=
  (world.interfacesAfter (world.height id) id []).reverse

/-- The types whose declarations are tried, in order, when a method of a class is looked for. -/
def methodOrder (world : World) (id : ClassId) : List ClassId :=
  world.superclasses id ++ world.interfaceOrder id

/-- The method to which a name and a descriptor lead from a class: a declaration of the class or of
its nearest superclass, or else of an interface. -/
def findMethod (world : World) (id : ClassId) (name descriptor : String) : Option Method :=
  (world.methodOrder id).findSome? fun type => (world.type type).declaredMethod? name descriptor

/-- `seen`, last first, after a class, its declared interfaces with theirs, depth first, and then
the superclass with its. No type is entered twice. -/
def fieldOrderAfter (world : World) : (limit : Nat) → ClassId → (seen : List ClassId) → List ClassId
  | 0, id, seen => if seen.contains id then seen else id :: seen
  | limit + 1, id, seen =>
      if seen.contains id then seen
      else
        let seen := (world.type id).interfaces.foldl (fun seen interface =>
          fieldOrderAfter world limit interface seen) (id :: seen)
        match (world.type id).superclass? with
        | some superclass => fieldOrderAfter world limit superclass seen
        | none => seen

/-- The types whose declarations are tried, in order, when a field of a class is looked for. -/
def fieldOrder (world : World) (id : ClassId) : List ClassId :=
  (world.fieldOrderAfter (world.height id) id []).reverse

/-- The field to which a name and a descriptor lead from a class: its own, or else one of its
interfaces, or else what they lead to from the superclass. -/
def findField (world : World) (id : ClassId) (name descriptor : String) : Option FieldSlot :=
  (world.fieldOrder id).findSome? fun type => (world.type type).declaredField? name descriptor

end JavaMachine.World
