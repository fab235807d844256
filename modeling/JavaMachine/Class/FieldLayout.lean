import JavaMachine.Class.Declaration
import JavaMachine.Table

/-!
# Field layouts

The fields of a linked class with their places. The layout of instances begins with the
superclass's, goes on with the fields of the declared interfaces that are not yet there, and ends
with the fields the class declares. Static fields are numbered on their own.
-/

namespace JavaMachine

/-- The places of the fields of a class. -/
structure FieldLayout where
  /-- The fields of an instance, in the order of their offsets. -/
  slots : List FieldSlot := []
  /-- The static fields the class declares. -/
  static : Table String FieldSlot := {}
  deriving Inhabited

namespace FieldLayout

/-- The instance field with a key. -/
def findSlot? (slots : List FieldSlot) (key : String) : Option FieldSlot :=
  slots.find? fun slot => slot.field.key = key

/-- Adds a field behind the slots unless its key is there. -/
def addMissing (slots : List FieldSlot) (field : Field) : List FieldSlot :=
  if (findSlot? slots field.key).isSome then slots else slots ++ [⟨slots.length, field⟩]

/-- The layout before own fields are added, given those of the superclass and of the interfaces. -/
def inherit (superclass : List FieldSlot) (interfaces : List (List FieldSlot)) : FieldLayout where
  slots := interfaces.foldl
    (fun slots inherited => (inherited.map FieldSlot.field).foldl addMissing slots) superclass

/-- Adds a declared field at the end of its kind. -/
def add (className : String) (layout : FieldLayout) (field : Field) :
    Except LinkageError FieldLayout :=
  let key := field.key
  if (findSlot? layout.slots key).isSome ∨ layout.static.contains key then
    .error (.duplicateField className key)
  else if field.isStatic then
    .ok { layout with static := layout.static.insert key ⟨layout.static.size, field⟩ }
  else .ok { layout with slots := layout.slots ++ [⟨layout.slots.length, field⟩] }

end FieldLayout
end JavaMachine
