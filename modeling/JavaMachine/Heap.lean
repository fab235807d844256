import JavaMachine.World

/-!
# Allocation

New objects: instances with every field at its default, and arrays of zeros or nulls.
-/

namespace JavaMachine.World

/-- Lengths from here on cannot be reserved: they exceed every address space. -/
def unreservable : Nat := 1 <<< 47

/-- Adds an object. -/
def allocate (type : ClassId) (body : ObjectBody) : WorldM ObjectId :=
  modifyGet fun world => world.addObject { type, body }

/-- The fields of a new instance. -/
def freshFields (layout : FieldLayout) : Array Value :=
  (layout.slots.map fun slot => Value.default slot.field.valueType).toArray

/-- A new instance of a linked declared class. -/
def allocateInstance (id : ClassId) (attachment : Attachment := .none) : WorldM ObjectId := do
  let type := (← get).type id
  match type.declared? with
  | none => throw (.internal (.notInstanceClass type.name))
  | some body =>
      match body.linkage with
      | none => throw (.internal (.allocatedUnlinked type.name))
      | some linkage => allocate id (.record (freshFields linkage.fields) attachment)

/-- A new array of a primitive array class. -/
def allocatePrimitives (id : ClassId) (length : Nat) : WorldM ObjectId := do
  let type := (← get).type id
  match type.kind with
  | .primitiveArray element _ =>
      if length < unreservable then allocate id (.primitives (.zeroed element length))
      else throw (.runtime (.outOfMemory length))
  | _ => throw (.internal (.notPrimitiveArrayClass type.name))

/-- A new array of a reference array class. -/
def allocateReferences (id : ClassId) (length : Nat) : WorldM ObjectId := do
  let type := (← get).type id
  match type.kind with
  | .referenceArray _ _ _ =>
      if length < unreservable then allocate id (.references (Array.replicate length none))
      else throw (.runtime (.outOfMemory length))
  | _ => throw (.internal (.notReferenceArrayClass type.name))

end JavaMachine.World
