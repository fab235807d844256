import JavaMachine.Initialization

/-!
# Field access

Static fields live in the class that declares them, instance fields in objects. An access through
the machine initializes the declaring class first, and a stored int is narrowed to the field's
type.
-/

namespace JavaMachine

namespace World

/-- The place of a static field that the class itself declares. -/
def staticSlot (world : World) (id : ClassId) (slot : Option FieldSlot) :
    Except Error (DeclaredClass × FieldSlot) :=
  let type := world.type id
  match type.declared?, slot with
  | none, _ => .error (.internal (.notInstanceClass type.name))
  | _, none => .error (.linkage (.fieldNotFound .static))
  | some body, some slot =>
      if slot.field.isStatic ∧ slot.field.ownerName = type.name then .ok (body, slot)
      else .error (.internal (.notStaticField slot.field.key type.name))

/-- The value of a static field. -/
def getStatic (world : World) (id : ClassId) (slot : Option FieldSlot) : Except Error Value :=
  match world.staticSlot id slot with
  | .error error => .error error
  | .ok (body, slot) =>
      if body.linkage.isNone then .error (.internal .notLinked)
      else
        match body.static[slot.offset]? with
        | none => .error (.internal (.noStaticSlot slot.field.key))
        | some value =>
            if value.fits slot.field.valueType then .ok value
            else .error (.internal (.wrongContent slot.field.key value.shape))

/-- The world with another value in a static field. -/
def putStatic (world : World) (id : ClassId) (slot : Option FieldSlot) (value : Value) :
    Except Error World :=
  match world.staticSlot id slot with
  | .error error => .error error
  | .ok (body, slot) =>
      if !value.fits slot.field.valueType then
        .error (.internal (.wrongStore value.shape slot.field.key))
      else if body.linkage.isNone then .error (.internal .notLinked)
      else if slot.offset < body.static.size then
        .ok (world.modifyDeclared id fun body =>
          { body with static := body.static.setIfInBounds slot.offset value })
      else .error (.internal (.noStaticSlot slot.field.key))

/-- The value of a field of an object. -/
def getField (world : World) (object : ObjectId) (slot : Option FieldSlot) : Except Error Value :=
  (world.object object).getField (world.typeOf object).name slot

/-- The world with another value in a field of an object. -/
def putField (world : World) (object : ObjectId) (slot : Option FieldSlot) (value : Value) :
    Except Error World :=
  ((world.object object).putField (world.typeOf object).name slot value).map
    (world.setObject object)

end World

variable {Client : Type}

/-- Reads a field: a static one without a receiver, an instance field of the receiver. -/
def readField (run : Runner Client) (slot : Option FieldSlot) (receiver : Option ObjectId) :
    MachineM Client Value := do
  match slot with
  | none => throw (.linkage (.fieldNotFound .unresolved))
  | some found =>
      initializeClass run found.field.owner
      let world ← MachineM.world
      match found.field.isStatic, receiver with
      | true, none => ofExcept (world.getStatic found.field.owner slot)
      | false, some object => ofExcept (world.getField object slot)
      | false, none => throw (.runtime (.nullPointer (.readField found.field.name)))
      | true, some _ => throw (.linkage (.instanceFieldExpected found.field.key))

/-- Writes a field: a static one without a receiver, an instance field of the receiver. -/
def writeField (run : Runner Client) (slot : Option FieldSlot) (receiver : Option ObjectId)
    (value : Value) : MachineM Client Unit := do
  match slot with
  | none => throw (.linkage (.fieldNotFound .unresolved))
  | some found =>
      initializeClass run found.field.owner
      let value := value.narrow found.field.valueType
      match found.field.isStatic, receiver with
      | true, none =>
          MachineM.onWorld (World.change fun world => world.putStatic found.field.owner slot value)
      | false, some object =>
          MachineM.onWorld (World.change fun world => world.putField object slot value)
      | false, none => throw (.runtime (.nullPointer (.assignField found.field.name)))
      | true, some _ => throw (.linkage (.instanceFieldExpected found.field.key))

namespace FrameM

/-- The field to which a constant of the class at work leads; it has to be static or not, as
asked. -/
def fieldAt (current : ClassId) (index : UInt16) (static : Bool) : FrameM Client FieldSlot := do
  match ← onWorld (World.resolveField current index) with
  | none => throw (.linkage (.fieldNotFound (.reference index)))
  | some slot =>
      if slot.field.isStatic = static then return slot
      else if static then throw (.linkage (.staticFieldExpected slot.field.key))
      else throw (.linkage (.instanceFieldExpected slot.field.key))

/-- Pushes the value of a static field. -/
def getStatic (run : Runner Client) (current : ClassId) (index : UInt16) : FrameM Client Unit := do
  let slot ← fieldAt current index true
  let value ← onMachine (readField run slot none)
  onStack (OperandStack.push value)

/-- Pops a value into a static field. -/
def putStatic (run : Runner Client) (current : ClassId) (index : UInt16) : FrameM Client Unit := do
  let slot ← fieldAt current index true
  let value ← onStack OperandStack.pop
  onMachine (writeField run slot none value)

/-- Pops an object and pushes the value of one of its fields. -/
def getField (run : Runner Client) (current : ClassId) (index : UInt16) : FrameM Client Unit := do
  let slot ← fieldAt current index false
  match ← onStack OperandStack.popReference with
  | none => throw (.runtime (.nullPointer (.readFieldAt index)))
  | some receiver =>
      let value ← onMachine (readField run slot (some receiver))
      onStack (OperandStack.push value)

/-- Pops a value and an object and stores the value in one of its fields. -/
def putField (run : Runner Client) (current : ClassId) (index : UInt16) : FrameM Client Unit := do
  let slot ← fieldAt current index false
  let value ← onStack OperandStack.pop
  match ← onStack OperandStack.popReference with
  | none => throw (.runtime (.nullPointer (.assignFieldAt index)))
  | some receiver => onMachine (writeField run slot (some receiver) value)

end FrameM
end JavaMachine
