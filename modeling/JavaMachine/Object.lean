import JavaMachine.Class.Basic
import JavaMachine.PrimitiveArray

/-!
# Objects

Instances with their field values, and arrays. An instance may carry the text of a string or stand
for a class.
-/

namespace JavaMachine

/-- What an instance carries besides its fields. -/
inductive Attachment where
  | none
  | text (content : String)
  | mirror (target : ClassId)
  deriving DecidableEq, Repr, Inhabited

/-- The content of an instance, of a primitive array or of a reference array. -/
inductive ObjectBody where
  | record (fields : Array Value) (attachment : Attachment)
  | primitives (elements : PrimitiveArray)
  | references (elements : Array (Option ObjectId))
  deriving DecidableEq, Repr

instance : Inhabited ObjectBody := ⟨.record #[] .none⟩

/-- An object of a class. -/
structure Object where
  type : ClassId
  body : ObjectBody
  deriving DecidableEq, Repr, Inhabited

namespace Object

/-- The number of elements of an array. -/
def length? (object : Object) : Option Nat :=
  match object.body with
  | .record _ _ => none
  | .primitives elements => some elements.size
  | .references elements => some elements.size

/-- The text that the object carries. -/
def text? (object : Object) : Option String :=
  match object.body with
  | .record _ (.text content) => some content
  | _ => none

/-- The class for which the object stands. -/
def mirrored? (object : Object) : Option ClassId :=
  match object.body with
  | .record _ (.mirror target) => some target
  | _ => none

end Object

/-- The place that an index names in an array of a length. -/
def checkIndex (index : Int32) (length : Nat) : Except RuntimeException Nat :=
  if 0 ≤ index.toInt ∧ index.toInt.toNat < length then .ok index.toInt.toNat
  else .error (.indexOutOfBounds index length)

namespace Object

/-- The value of an instance field. `className` is the name of the object's class. -/
def getField (object : Object) (className : String) (slot : Option FieldSlot) :
    Except Error Value :=
  match slot with
  | none => .error (.linkage (.fieldNotFound (.instanceOf className)))
  | some slot =>
      match object.body with
      | .record fields _ =>
          match fields[slot.offset]? with
          | none => .error (.internal (.outsideLayout slot.offset slot.field.key className))
          | some value =>
              if value.fits slot.field.valueType then .ok value
              else .error (.internal (.wrongContent slot.field.key value.shape))
      | _ => .error (.internal (.noInstanceFields className))

/-- The object with another value in an instance field. -/
def putField (object : Object) (className : String) (slot : Option FieldSlot) (value : Value) :
    Except Error Object :=
  match slot with
  | none => .error (.linkage (.fieldNotFound (.instanceOf className)))
  | some slot =>
      if !value.fits slot.field.valueType then
        .error (.internal (.wrongStore value.shape slot.field.key))
      else
        match object.body with
        | .record fields attachment =>
            if slot.offset < fields.size then
              let fields := fields.setIfInBounds slot.offset value
              .ok { object with body := .record fields attachment }
            else .error (.internal (.outsideLayout slot.offset slot.field.key className))
        | _ => .error (.internal (.noInstanceFields className))

/-- An element of a primitive array, as a cell of the type asked for. -/
def getElement (object : Object) (className : String) (type : CellType) (index : Int32) :
    Except Error type.Cell :=
  match object.body with
  | .primitives elements =>
      match checkIndex index elements.size with
      | .error exception => .error (.runtime exception)
      | .ok place =>
          match elements.read? type place with
          | some cell => .ok cell
          | none => .error (.runtime (.wrongElement className elements.element type))
  | _ => .error (.runtime (.notPrimitiveArray className))

/-- The primitive array with another element. -/
def putElement (object : Object) (className : String) (type : CellType) (index : Int32)
    (cell : type.Cell) : Except Error Object :=
  match object.body with
  | .primitives elements =>
      match checkIndex index elements.size with
      | .error exception => .error (.runtime exception)
      | .ok place =>
          match elements.write? type place cell with
          | some elements => .ok { object with body := .primitives elements }
          | none => .error (.runtime (.wrongElement className elements.element type))
  | _ => .error (.runtime (.notPrimitiveArray className))

/-- An element of a reference array. -/
def getReference (object : Object) (className : String) (index : Int32) :
    Except Error (Option ObjectId) :=
  match object.body with
  | .references elements =>
      match checkIndex index elements.size with
      | .error exception => .error (.runtime exception)
      | .ok place => .ok ((elements[place]?).getD none)
  | _ => .error (.runtime (.notReferenceArray className))

/-- The reference array with another element. -/
def putReference (object : Object) (className : String) (index : Int32)
    (element : Option ObjectId) : Except Error Object :=
  match object.body with
  | .references elements =>
      match checkIndex index elements.size with
      | .error exception => .error (.runtime exception)
      | .ok place => .ok { object with body := .references (elements.setIfInBounds place element) }
  | _ => .error (.runtime (.notReferenceArray className))

end Object
end JavaMachine
