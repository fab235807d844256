import JavaMachine.FieldAccess
import JavaMachine.Proofs.Storage

/-!
# Reading and storing

When a field can be read or stored, and what comes of it: a read gives what lies at the place of the
field, if that fits, and a store changes what lies there and nothing else. A store into a reference
array changes the element at the index.
-/

namespace JavaMachine

variable {slot : FieldSlot} {value : Value}

theorem checkIndex_eq_ok {index : Int32} {length place : Nat} :
    checkIndex index length = .ok place ↔
      0 ≤ index.toInt ∧ index.toInt.toNat < length ∧ place = index.toInt.toNat := by
  unfold checkIndex
  split
  next inside => simp only [Except.ok.injEq, inside, true_and, eq_comm]
  next outside => exact iff_of_false nofun fun inside => outside ⟨inside.1, inside.2.1⟩

namespace Object

variable {object changed : Object} {className : String}

/-- A field of an object can be read where the object has a value that fits. -/
theorem getField_eq_ok : object.getField className (some slot) = .ok value ↔
    ∃ fields, object.fields? = some fields ∧ fields[slot.offset]? = some value ∧
      value.fits slot.field.valueType := by
  unfold getField fields?
  dsimp only
  cases object.body with
  | record fields attachment =>
      cases held : fields[slot.offset]? with
      | none => simp [held]
      | some own =>
          by_cases fits : own.fits slot.field.valueType
          · simp only [fits, if_true, Except.ok.injEq, Option.some.injEq, exists_eq_left', held]
            exact ⟨fun same => ⟨same, same ▸ fits⟩, And.left⟩
          · simp only [fits, if_false, reduceCtorEq, Option.some.injEq, exists_eq_left', held,
              false_iff, not_and]
            exact fun same => same ▸ fits
  | primitives elements => simp
  | references elements => simp

/-- A value can be stored in a field of an object if it fits and the object has the field. -/
theorem putField_eq_ok : object.putField className (some slot) value = .ok changed ↔
    value.fits slot.field.valueType ∧ ∃ fields attachment,
      object.body = .record fields attachment ∧ slot.offset < fields.size ∧
        changed = { object with
          body := .record (fields.setIfInBounds slot.offset value) attachment } := by
  unfold putField
  dsimp only
  by_cases fits : value.fits slot.field.valueType
  · cases body : object.body with
    | record fields attachment =>
        by_cases present : slot.offset < fields.size
        · simp [fits, present, eq_comm]
        · simp [fits, present]
    | primitives elements => simp [fits]
    | references elements => simp [fits]
  · simp [fits]

/-- An element can be stored in a reference array that has a place of the index. -/
theorem putReference_eq_ok {index : Int32} {element : Option ObjectId} :
    object.putReference className index element = .ok changed ↔
      ∃ elements place, object.body = .references elements ∧
        checkIndex index elements.size = .ok place ∧
        changed = { object with body := .references (elements.setIfInBounds place element) } := by
  unfold putReference
  cases object.body with
  | record fields attachment => simp
  | primitives elements => simp
  | references elements =>
      cases checked : checkIndex index elements.size with
      | error exception => simp [checked]
      | ok place => simp [checked, eq_comm]

end Object

namespace World

variable {world later : World} {id : ClassId}

/-- The class is linked, and the field is a static one that goes by the name of the class. -/
structure Hosts (world : World) (id : ClassId) (slot : FieldSlot) : Prop where
  linked : (world.type id).linkage?.isSome
  named : slot.field.isStatic ∧ slot.field.ownerName = (world.type id).name

/-- The world with another value in one place among the static values of a class. -/
def withStatic (world : World) (id : ClassId) (place : Nat) (value : Value) : World :=
  world.modifyDeclared id fun body =>
    { body with static := body.static.setIfInBounds place value }

theorem keeps_withStatic (world : World) (id : ClassId) (place : Nat) (value : Value) :
    world.Keeps (world.withStatic id place value) :=
  .modifyDeclared world id (fun _ => rfl) fun _ => rfl

theorem static_withStatic (world : World) (id other : ClassId) (place : Nat) (value : Value) :
    ((world.withStatic id place value).type other).static =
      if id = other then (world.type other).static.setIfInBounds place value
      else (world.type other).static := by
  rw [withStatic, modifyDeclared, type_modifyType]
  by_cases same : id = other
  · by_cases present : other.index < world.classes.size
    · rw [if_pos ⟨same, present⟩, if_pos same]
      cases kind : (world.type other).kind with
      | declared body => simp [Class.static, Class.declared?, kind]
      | primitiveArray element supertypes => simp [Class.static, Class.declared?, kind]
      | referenceArray component dimension supertypes =>
          simp [Class.static, Class.declared?, kind]
    · rw [if_neg fun both => present both.2, if_pos same,
        type_eq_default (Nat.le_of_not_lt present)]
      rfl
  · rw [if_neg fun both => same both.1, if_neg same]

/-- The class behind a static field that is found. -/
theorem hosts_of_staticSlot {body : DeclaredClass} {own : FieldSlot}
    (found : world.staticSlot id (some slot) = .ok (body, own)) (linked : body.linkage.isSome) :
    own = slot ∧ world.Hosts id slot ∧ (world.type id).static = body.static := by
  unfold staticSlot at found
  dsimp only at found
  split at found
  · cases found
  · cases found
  next declared same =>
    split at found
    next hosted =>
      cases found
      cases same
      refine ⟨rfl, ⟨?_, hosted⟩, ?_⟩
      · rw [Class.linkage?, declared]
        exact linked
      · rw [Class.static, declared]
        rfl
    next => cases found

theorem Hosts.staticSlot (hosts : world.Hosts id slot) : ∃ body,
    world.staticSlot id (some slot) = .ok (body, slot) ∧ body.linkage.isSome ∧
      (world.type id).static = body.static := by
  obtain ⟨linkage, linked⟩ := Option.isSome_iff_exists.1 hosts.linked
  obtain ⟨body, declared, attached⟩ := Option.bind_eq_some_iff.1 linked
  refine ⟨body, ?_, Option.isSome_of_eq_some attached, ?_⟩
  · simp [World.staticSlot, declared, hosts.named]
  · rw [Class.static, declared]
    rfl

/-- A static field can be read where the class has a value that fits. -/
theorem getStatic_eq_ok : world.getStatic id (some slot) = .ok value ↔
    world.Hosts id slot ∧ (world.type id).static[slot.offset]? = some value ∧
      value.fits slot.field.valueType := by
  constructor
  · intro read
    unfold getStatic at read
    split at read
    · cases read
    next body own found =>
      split at read
      · cases read
      next linked =>
        obtain ⟨rfl, hosts, static⟩ :=
          hosts_of_staticSlot found (by simpa [Option.isSome_iff_ne_none] using linked)
        split at read
        · cases read
        next held =>
          split at read
          next fits =>
            cases read
            exact ⟨hosts, static ▸ held, fits⟩
          next => cases read
  · rintro ⟨hosts, held, fits⟩
    obtain ⟨body, found, linked, static⟩ := hosts.staticSlot
    rw [static] at held
    simp [getStatic, found, Option.isSome_iff_ne_none.1 linked, held, fits]

theorem putStatic_none (world : World) (id : ClassId) (value : Value) :
    ∃ error, world.putStatic id none value = .error error := by
  unfold putStatic staticSlot
  dsimp only
  cases (world.type id).declared? with
  | none => exact ⟨_, rfl⟩
  | some body => exact ⟨_, rfl⟩

/-- A value can be stored in a static field if it fits and the class has the field. -/
theorem putStatic_eq_ok : world.putStatic id (some slot) value = .ok later ↔
    value.fits slot.field.valueType ∧ world.Hosts id slot ∧
      slot.offset < (world.type id).static.size ∧
        later = world.withStatic id slot.offset value := by
  constructor
  · intro stored
    unfold putStatic at stored
    split at stored
    · cases stored
    next body own found =>
      split at stored
      · cases stored
      next fits =>
        split at stored
        · cases stored
        next linked =>
          obtain ⟨rfl, hosts, static⟩ :=
            hosts_of_staticSlot found (by simpa [Option.isSome_iff_ne_none] using linked)
          split at stored
          next present =>
            cases stored
            exact ⟨by simpa using fits, hosts, static ▸ present, rfl⟩
          next => cases stored
  · rintro ⟨fits, hosts, present, rfl⟩
    obtain ⟨body, found, linked, static⟩ := hosts.staticSlot
    rw [static] at present
    simp [putStatic, found, Option.isSome_iff_ne_none.1 linked, present, fits, withStatic]

end World
end JavaMachine
