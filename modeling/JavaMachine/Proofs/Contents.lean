import JavaMachine.Proofs.Fields
import JavaMachine.Proofs.Stores

/-!
# What fields hold

Fields hold what they admit: they start with values that they admit, and values that they do not
admit are kept out of them if stores go to receivers that have the field. A receiver has the fields
of its class and of the superclasses, and each stands at the place that it has in the layout of the
class that declares it.
-/

namespace JavaMachine

/-! ### Values with which fields start -/

theorem FieldType.fits_default (type : FieldType) :
    (Value.default type.valueType).fits type.valueType := by
  cases type with
  | primitive element => cases element <;> rfl
  | object className => rfl
  | array component => rfl

@[simp] theorem Value.narrow_default (type : ValueType) :
    (default type).narrow type = default type := by
  cases type with
  | primitive element => cases element <;> rfl
  | void | object | array => rfl

theorem ValueType.fits_int {type : ValueType} (isIntLike : type.isIntLike) (value : Int32) :
    (Value.int value).fits type := by
  cases type with
  | primitive element =>
      cases element with
      | long | float | double => cases isIntLike
      | _ => rfl
  | void | object | array => cases isIntLike

/-- What a static field may start with. Only an int may be out of the range of the field. -/
inductive Field.StartsWith (file : ClassFile) (field : Field) : FirstValue → Prop where
  | default : StartsWith file field (.plain (.default field.valueType))
  | int {index : UInt16} {constant : Int32} (isFinal : field.isFinal)
      (names : field.constant = some index)
      (entry : file.constant? index = some (.integer constant))
      (isIntLike : field.valueType.isIntLike) : StartsWith file field (.plain (.int constant))
  | wide {value : Value} (fits : value.fits field.valueType) (wide : ∀ int, value ≠ .int int) :
      StartsWith file field (.plain value)
  | string (text : String) (reference : field.valueType = .object) :
      StartsWith file field (.string text)

theorem Field.startsWith_firstValue? {file : ClassFile} {field : Field} {first : FirstValue}
    (known : field.firstValue? file = .ok first) : field.StartsWith file first := by
  unfold firstValue? at known
  split at known
  next index isFinal names =>
    split at known
    next value type entry =>
      split at known
      next isIntLike =>
        cases known
        exact .int isFinal names entry isIntLike
      next => cases known
    next type =>
      cases known
      exact .wide (by rw [type]; rfl) nofun
    next type =>
      cases known
      exact .wide (by rw [type]; rfl) nofun
    next type =>
      cases known
      exact .wide (by rw [type]; rfl) nofun
    next type =>
      split at known
      · obtain ⟨text, _, known⟩ := Except.bind_ok known
        cases known
        exact .string text type
      · cases known
    next => cases known
  next =>
    cases known
    exact .default

/-- A static field starts with a value that fits. -/
theorem Field.StartsWith.fits {file : ClassFile} {field : Field} {first : FirstValue}
    (starts : field.StartsWith file first) {world : World} {value : Value}
    (depicts : world.Depicts value first) : value.fits field.valueType := by
  cases starts with
  | default =>
      rw [show value = _ from depicts]
      exact field.type.fits_default
  | int _ _ _ isIntLike =>
      rw [show value = _ from depicts]
      exact ValueType.fits_int isIntLike _
  | wide fits =>
      rw [show value = _ from depicts]
      exact fits
  | string text reference =>
      obtain ⟨object, rfl, _⟩ := depicts
      rw [reference]
      rfl

/-! ### What fields admit -/

/-- Which values fields hold. Those with which a field starts are among them. -/
structure Admission where
  instances : Field → Value → Prop
  /-- What a static field holds that a class file declares. -/
  statics : ClassFile → Field → Value → Prop
  default : ∀ field, instances field (.default field.valueType)
  first : ∀ {world : World} {file : ClassFile} {field : Field} {first : FirstValue} {value : Value},
    field.firstValue? file = .ok first → world.Depicts value first → statics file field value

namespace Admission

/-- Fields that may hold anything. -/
def any : Admission where
  instances _ _ := True
  statics _ _ _ := True
  default _ := trivial
  first _ _ := trivial

/-- Fields that hold what fits. -/
def fitting : Admission where
  instances field value := value.fits field.valueType
  statics _ field value := value.fits field.valueType
  default field := field.type.fits_default
  first known depicts := (Field.startsWith_firstValue? known).fits depicts

end Admission

theorem Class.fields_eq_of_lasting {type other : Class} (same : other.lasting = type.lasting) :
    other.fields = type.fields := by
  rw [fields, ← lasting_linkage?, same, lasting_linkage?, fields]

namespace World

variable {world later : World} {id : ClassId} {object : ObjectId} {fields : Array Value}
variable {slot : FieldSlot} {value : Value} {holder : Holder} {name descriptor : String}

/-- Instances have a value for each field of their classes and classes for each static field, and
all are values that the field admits. -/
structure Contains (admission : Admission) (world : World) : Prop where
  instances : ∀ object, object.index < world.objects.size → ∀ fields,
    (world.object object).fields? = some fields → ∀ slot ∈ (world.typeOf object).fields.slots,
      ∃ value, fields[slot.offset]? = some value ∧ admission.instances slot.field value
  statics : ∀ id file key slot, (world.type id).file? = some file →
    (world.type id).fields.static.find? key = some slot →
      ∃ value, (world.type id).static[slot.offset]? = some value ∧
        admission.statics file slot.field value

/-- The holder has the field: an object if its class is the one that declares the field or a
subclass, a class if it declares the field itself. -/
def HasField (world : World) (slot : FieldSlot) : Holder → Prop
  | .object object => object.index < world.objects.size ∧ ¬ slot.field.isStatic ∧
      ∃ declarer name descriptor,
        (world.type declarer).declaredField? name descriptor = some slot ∧
          world.Inherits (world.object object).type declarer
  | .type id => slot.field.isStatic ∧
      ∃ name descriptor, (world.type id).declaredField? name descriptor = some slot

/-- The operation stores in fields of receivers only that have them. -/
def StoresProperly (world : World) (operation : Operation) : Prop :=
  ∀ later holder slot value, world.Attempts operation later holder slot value →
    later.HasField slot holder

/-! ### Places -/

theorem object_mem (present : object.index < world.objects.size) :
    world.object object ∈ world.objects := by
  rw [World.object, Array.getD_eq_getD_getElem?, Array.getElem?_eq_getElem present]
  exact Array.getElem_mem present

/-- Instances are of linked classes. -/
theorem Sound.linked_of_fields? (sound : world.Sound) (present : object.index < world.objects.size)
    (holds : (world.object object).fields? = some fields) :
    (world.typeOf object).linkage?.isSome := by
  obtain ⟨attachment, body⟩ := Object.fields?_eq_some.1 holds
  obtain ⟨linkage, linked, _⟩ := sound.objects _ (object_mem present) fields attachment body
  exact Option.isSome_of_eq_some linked

/-- The static fields of a class are its own, and each has a place to itself. -/
theorem Sound.hosted_fields (sound : world.Sound) (id : ClassId) :
    (world.type id).fields.Hosted id (world.type id).name := by
  cases linked : (world.type id).linkage? with
  | none =>
      rw [Class.fields, linked]
      exact FieldLayout.hosted_inherit [] []
  | some linkage =>
      obtain ⟨file, _, fits⟩ := sound.fits linked
      rw [fields_of_linkage? linked]
      exact (FieldLayout.hosted_inherit _ _).addAll fits.fields

/-- A declared static field stands among the static fields of the class. -/
theorem Sound.find?_static_of_declared (sound : world.Sound)
    (declares : (world.type id).declaredField? name descriptor = some slot)
    (static : slot.field.isStatic) :
    ∃ key, (world.type id).fields.static.find? key = some slot := by
  rcases Option.or_eq_some_iff.1 declares with among | ⟨_, found⟩
  · exact absurd static
      ((sound.lawful_fields id).instances slot (List.mem_of_find?_eq_some among))
  · exact ⟨_, found⟩

/-- An instance has a place for the field at the offset that the field has. -/
theorem Sound.slot_mem_of_hasField (sound : world.Sound)
    (has : world.HasField slot (.object object))
    (holds : (world.object object).fields? = some fields) :
    slot ∈ (world.typeOf object).fields.slots := by
  obtain ⟨present, dynamic, declarer, name, descriptor, declares, inherits⟩ := has
  have linked := Option.isSome_iff_exists.1 (sound.linked_of_fields? present holds)
  exact (sound.slots_prefix_of_inherits linked inherits).subset
    (sound.mem_slots_of_declared declares dynamic).1

/-! ### What is left alone -/

/-- Where fields are left alone they hold on to what they admit. -/
theorem Contains.of_leaves {admission : Admission} (clean : world.Clean) (lasts : world.Lasts later)
    (leaves : world.LeavesFields later) (contains : world.Contains admission) :
    later.Contains admission := by
  have keeps := lasts.grows.keepsUsable
  constructor
  · intro object present fields holds slot among
    rcases Nat.lt_or_ge object.index world.objects.size with before | new
    · rw [leaves.held object before] at holds
      have linked := clean.sound.linked_of_fields? before holds
      rw [typeOf, lasts.grows.objects.type_eq before] at among
      exact contains.instances object before fields holds slot (keeps.fields_eq linked ▸ among)
    · -- an object allocated meanwhile holds the defaults
      obtain ⟨linkage, linked, rfl⟩ := leaves.fresh object new present fields holds
      have placed := (lasts.sound.lawful_fields _).getElem?_offset among
      rw [fields_of_linkage? linked] at placed
      exact ⟨_, by simp [freshFields, placed], admission.default slot.field⟩
  · intro id file key slot declared found
    cases linked : (world.type id).linkage? with
    | some linkage =>
        have linked := Option.isSome_of_eq_some linked
        have same := congrArg Class.file? (keeps id (Class.isUsable_of_linkage? linked))
        simp only [Class.lasting_file?] at same
        rw [same] at declared
        rw [keeps.fields_eq linked] at found
        rw [leaves.static id linked]
        exact contains.statics id file key slot declared found
    | none =>
        -- a class linked meanwhile holds what linking starts its fields with
        obtain ⟨linkage, linkedNow⟩ :=
          Option.isSome_iff_exists.1 (linked_of_holds (.static found rfl))
        rw [fields_of_linkage? linkedNow] at found
        obtain ⟨value, first, held, known, depicts⟩ :=
          (leaves.starts id file linkage linked declared linkedNow).values key slot found
        exact ⟨value, held, admission.first known depicts⟩

instance (admission : Admission) : Steadfast (Contains admission) where
  lasts clean lasts leaves := .of_leaves clean lasts leaves.toLeavesFields
  note _ _ _ contains := ⟨contains.instances, contains.statics⟩
  move {world id state} _ moves contains := by
    have lasting (other : ClassId) := lasting_withState world id other state
    have keeps : world.KeepsUsable (world.withState id state) := fun other _ => lasting other
    have leaves := (LeavesContents.withState world id state).toLeavesFields
    have fields (other : ClassId) := Class.fields_eq_of_lasting (lasting other)
    constructor
    · intro object present own holds slot among
      rw [typeOf, fields] at among
      exact contains.instances object present own holds slot among
    · intro other file key slot declared found
      rw [← Class.lasting_file?, lasting, Class.lasting_file?] at declared
      rw [fields] at found
      rw [leaves.static other (linked_of_holds (.static found rfl))]
      exact contains.statics other file key slot declared found

/-! ### What is stored -/

/-- The value is admitted by whatever field is at the place. -/
def Admits (admission : Admission) (world : World) (slot : FieldSlot) (value : Value) :
    Holder → Prop
  | .object object => ∀ fields, (world.object object).fields? = some fields →
      ∀ own ∈ (world.typeOf object).fields.slots, own.offset = slot.offset →
        admission.instances own.field value
  | .type id => ∀ file key own, (world.type id).file? = some file →
      (world.type id).fields.static.find? key = some own → own.offset = slot.offset →
        admission.statics file own.field value

/-- A field that a holder has is the one that is at its place, now and later. -/
theorem admits_of_hasField {admission : Admission} {final : World} (sound : later.Sound)
    (has : later.HasField slot holder) (endures : later.Endures final)
    (admits : admission.instances slot.field value ∧
      ∀ file, admission.statics file slot.field value) :
    Admits admission final slot value holder := by
  cases holder with
  | object object =>
      intro fields holds own among same
      have present := has.1
      cases before : (later.object object).fields? with
      | none =>
          have none := Object.fields?_eq_none_of_lasting
            (endures.objects.lasting object present).symm before
          rw [none] at holds
          cases holds
      | some former =>
          have linked := sound.linked_of_fields? present before
          rw [typeOf, endures.objects.type_eq present, endures.usable.fields_eq linked] at among
          have lawful := sound.lawful_fields (later.object object).type
          have placed := lawful.getElem?_offset among
          have placedToo := lawful.getElem?_offset (sound.slot_mem_of_hasField has before)
          -- no two fields of a lawful layout stand at one place
          rw [same, placedToo] at placed
          cases placed
          exact admits.1
  | type id =>
      intro file key own declared found same
      obtain ⟨static, name, descriptor, declares⟩ := has
      obtain ⟨keyToo, foundToo⟩ := sound.find?_static_of_declared declares static
      rw [endures.usable.fields_eq (linked_of_holds (.static foundToo rfl))] at found
      rw [(sound.hosted_fields id).apart _ _ _ _ foundToo found same]
      exact admits.2 file

/-- Another value at one place leaves at each place what is admitted there. -/
theorem admitted_setIfInBounds {contents : Array Value} {changed place : Nat}
    {admitted : Value → Prop} (before : ∃ held, contents[place]? = some held ∧ admitted held)
    (admits : place = changed → admitted value) :
    ∃ held, (contents.setIfInBounds changed value)[place]? = some held ∧ admitted held := by
  obtain ⟨held, placed, unchanged⟩ := before
  by_cases here : place = changed
  · have inside := (Array.getElem?_eq_some_iff.1 placed).1
    exact ⟨value, by simp [← here, inside], admits here⟩
  · exact ⟨held, by rw [Array.getElem?_setIfInBounds_ne (Ne.symm here), placed], unchanged⟩

/-- A store of what is admitted leaves in all fields what they admit. -/
theorem Contains.store {admission : Admission} (contains : world.Contains admission)
    (admits : value.fits slot.field.valueType → Admits admission world slot value holder)
    (stored : world.store slot value holder = .ok later) : later.Contains admission := by
  cases holder with
  | object target =>
      obtain ⟨changed, put, rfl⟩ := stored_of_map stored
      obtain ⟨fits, former, attachment, body, _, rfl⟩ := Object.putField_eq_ok.1 put
      refine ⟨fun object present fields holds own among => ?_, contains.statics⟩
      simp only [World.setObject, Array.size_setIfInBounds] at present
      simp only [typeOf, object_setObject, present, and_true] at holds among
      by_cases same : target = object
      · subst same
        rw [if_pos rfl] at holds among
        cases holds
        have before : (world.object target).fields? = some former :=
          Object.fields?_eq_some.2 ⟨attachment, body⟩
        exact admitted_setIfInBounds (contains.instances target present former before own among)
          (admits fits former before own among)
      · rw [if_neg same] at holds among
        exact contains.instances object present fields holds own among
  | type target =>
      obtain ⟨fits, _, _, rfl⟩ := putStatic_eq_ok.1 stored
      have lasting := (keeps_withStatic world target slot.offset value).lasting
      have fields (other : ClassId) := Class.fields_eq_of_lasting (lasting other)
      constructor
      · intro object present own holds place among
        rw [typeOf, fields] at among
        exact contains.instances object present own holds place among
      · intro id file key own declared found
        rw [← Class.lasting_file?, lasting, Class.lasting_file?] at declared
        rw [fields] at found
        have before := contains.statics id file key own declared found
        rw [static_withStatic]
        split
        next same =>
          subst same
          exact admitted_setIfInBounds before (admits fits file key own declared found)
        next => exact before

/-- The elements of an array are no fields. -/
theorem Contains.putReference {admission : Admission} (contains : world.Contains admission)
    (clean : world.Clean) {array : ObjectId} {index : Int32} {element : Option ObjectId}
    (stored : world.putReference array index element = .ok later) : later.Contains admission := by
  have develops := develops_putReference array index element clean.sound
  rw [runFrom_change_ok stored] at develops
  exact contains.of_leaves clean develops.toLasts (leavesFields_putReference stored)

/-- A store is fine if its value is admitted wherever it is stored, now and later. -/
def Fine (admission : Admission) (world : World) (holder : Holder) (slot : FieldSlot)
    (value : Value) : Prop :=
  ∀ later, world.Endures later → value.fits slot.field.valueType →
    Admits admission later slot value holder

/-- Whatever rule lets nothing be stored but what is fine keeps what fields admit in them. -/
theorem governs_of_fine {admission : Admission} {rule : World → Operation → Prop}
    (grants : ∀ {world operation later holder slot value}, HoldsCleanly (Contains admission) later →
      rule world operation → world.Attempts operation later holder slot value →
        Fine admission later holder slot value) :
    Governs rule (Contains admission) (Fine admission) where
  grants := grants
  endures _ endures fine later enduresOn := fine later (endures.trans enduresOn)
  stores holding fine stored :=
    holding.holds.store (fine _ (.refl _)) stored
  fills holding _ _ stored :=
    holding.holds.putReference holding.clean stored

/-- Stores are fine in fields that receivers have, if these admit what fits and is stored. -/
theorem governs_of_proper {admission : Admission} {rule : World → Operation → Prop}
    (proper : ∀ {world operation}, rule world operation → world.StoresProperly operation)
    (admits : ∀ {world operation later holder slot value}, rule world operation →
      world.Attempts operation later holder slot value → value.fits slot.field.valueType →
        admission.instances slot.field value ∧ ∀ file, admission.statics file slot.field value) :
    Governs rule (Contains admission) (Fine admission) :=
  governs_of_fine fun holding allowed attempts _ endures fits =>
    admits_of_hasField holding.clean.sound (proper allowed _ _ _ _ attempts) endures
      (admits allowed attempts fits)

theorem contains_initial (admission : Admission) (sources : List Source) :
    (World.initial sources).Contains admission where
  instances object present := by
    simp [World.initial] at present
  statics id file key slot _ found := by
    rw [type_eq_default (Nat.zero_le _)] at found
    cases found

end World
end JavaMachine
