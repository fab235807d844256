import JavaMachine.Proofs.Retrieval

/-!
# Ranges of fields

A field of a narrow type holds a value in the range of the type: an instance starts with zeros, and
a store through the machine narrows the value. What a static field starts with is not narrowed, so a
constant field may hold an int of its class file that is out of the range.
-/

namespace JavaMachine

@[simp] theorem Primitive.narrow_narrow (type : Primitive) (value : Int32) :
    type.narrow (type.narrow value) = type.narrow value := by
  cases type with
  | boolean => simp [narrow, Int32.and_assoc]
  | char => simp only [narrow, UInt32.toUInt32_toInt32, UInt16.toUInt16_toUInt32]
  | byte | short | int | long | float | double => simp [narrow]

@[simp] theorem Value.narrow_narrow (type : ValueType) (value : Value) :
    (value.narrow type).narrow type = value.narrow type := by
  cases value with
  | int value =>
      cases type with
      | primitive type => simp [narrow, ValueType.narrow]
      | void | object | array => rfl
  | float _ | long _ | double _ | reference _ => rfl

/-- The value is an int that the class file gives as the constant of a final field. -/
def Field.HoldsConstant (file : ClassFile) (field : Field) (value : Value) : Prop :=
  field.isFinal ∧ ∃ index constant, field.constant = some index ∧
    file.constant? index = some (.integer constant) ∧ value = .int constant

/-- A static field starts in its range unless it starts with a constant. -/
theorem Field.StartsWith.inRange {file : ClassFile} {field : Field} {first : FirstValue}
    (starts : field.StartsWith file first) {world : World} {value : Value}
    (depicts : world.Depicts value first) :
    value.narrow field.valueType = value ∨ field.HoldsConstant file value := by
  cases starts with
  | default =>
      rw [show value = _ from depicts]
      exact .inl (Value.narrow_default _)
  | int isFinal names entry =>
      -- the only start that nothing narrows
      exact .inr ⟨isFinal, _, _, names, entry, depicts⟩
  | @wide first _ wide =>
      rw [show value = first from depicts]
      cases first with
      | int int => exact absurd rfl (wide int)
      | float _ | long _ | double _ | reference _ => exact .inl rfl
  | string text reference =>
      obtain ⟨object, rfl, _⟩ := depicts
      exact .inl rfl

/-- Fields that hold what is in their range, or the constants with which they start. -/
def Admission.inRange : Admission where
  instances field value := value.narrow field.valueType = value
  statics file field value := value.narrow field.valueType = value ∨ field.HoldsConstant file value
  default _ := Value.narrow_default _
  first known depicts := (Field.startsWith_firstValue? known).inRange depicts

namespace World

/-- Values are stored in fields of receivers that have them, and only in the range of the field. -/
structure StoresNarrowly (world : World) (operation : Operation) : Prop where
  proper : world.StoresProperly operation
  narrowed : ∀ later holder slot value, world.Attempts operation later holder slot value →
    value.narrow slot.field.valueType = value

/-- What is stored through the machine is narrowed. -/
theorem StoresProperly.narrowly {world : World} {operation : Operation}
    (proper : world.StoresProperly operation)
    (notInObject : ∀ object slot value, operation ≠ .putField object slot value)
    (notInClass : ∀ type slot value, operation ≠ .putStatic type slot value) :
    world.StoresNarrowly operation where
  proper := proper
  narrowed later holder slot value attempts := by
    cases attempts with
    | putField => exact absurd rfl (notInObject _ _ _)
    | putStatic => exact absurd rfl (notInClass _ _ _)
    | writeField | putstatic | putfield => exact Value.narrow_narrow _ _

end World

section Sessions

variable {session : Session} {world : World}

/-- In all worlds that are met fields hold values in their range, or constants. -/
theorem Session.contains_inRange (abides : session.Abides World.StoresNarrowly)
    (among : world ∈ session.worlds) : world.Contains .inRange := by
  have governs : Governs World.StoresNarrowly (World.Contains .inRange) (World.Fine .inRange) :=
    World.governs_of_proper World.StoresNarrowly.proper fun allowed attempts _ =>
      have narrowed := allowed.narrowed _ _ _ _ attempts
      ⟨narrowed, fun _ => .inl narrowed⟩
  exact (Session.holds_of_abides governs.storesKeep abides
    (World.contains_initial .inRange _) world among).holds

/-- As long as stores are in the range of their fields, instances hold values in the range of each
field of their classes, and classes in that of each static field, unless it is a final field with
the constant that the class file gives. What is read of a field is so as well. -/
theorem Session.fields_in_range (abides : session.Abides World.StoresNarrowly)
    (among : world ∈ session.worlds) :
    (∀ object, object.index < world.objects.size → ∀ fields,
      (world.object object).fields? = some fields → ∀ slot ∈ (world.typeOf object).fields.slots,
        ∃ value, fields[slot.offset]? = some value ∧
          value.narrow slot.field.valueType = value) ∧
    (∀ id file key slot, (world.type id).file? = some file →
      (world.type id).fields.static.find? key = some slot →
        ∃ value, (world.type id).static[slot.offset]? = some value ∧
          (value.narrow slot.field.valueType = value ∨ slot.field.HoldsConstant file value)) ∧
    ∀ holder slot value, world.HasField slot holder → world.fetch slot holder = .ok value →
      value.narrow slot.field.valueType = value ∨
        ∃ file, (world.type slot.field.owner).file? = some file ∧
          slot.field.HoldsConstant file value := by
  have contains := session.contains_inRange abides among
  refine ⟨contains.instances, contains.statics, fun holder slot value has fetched => ?_⟩
  have sound := (show world.Met from ⟨session, among⟩).clean.sound
  have there := ((sound.fetch_eq_ok has).1 fetched).1
  have holds : world.HoldsFields holder := by
    cases holder with
    | object object =>
        obtain ⟨fields, known, _⟩ := Option.bind_eq_some_iff.1 there
        exact Option.isSome_of_eq_some known
    | type id => trivial
  obtain ⟨held, thereToo, admitted⟩ := contains.content? sound has holds
  rw [there] at thereToo
  cases thereToo
  rcases admitted with narrowed | ⟨file, declared, narrowed | constant⟩
  · exact .inl narrowed
  · exact .inl narrowed
  · exact .inr ⟨file, declared, constant⟩

end Sessions

namespace Gauges

set_option maxRecDepth 20000

theorem abides_narrowly : session.Abides World.StoresNarrowly := by
  intro step among
  have fine := List.all_eq_true.1 steps_suitable step among
  refine (abides step among).narrowly (fun object slot value same => ?_)
    fun type slot value same => ?_
  · rw [suitable, same] at fine
    cases fine
  · rw [suitable, same] at fine
    cases fine

/-- The constant field of `Gauge`. -/
def limit : FieldSlot where
  offset := 0
  field := { level.field with name := "LIMIT", flags := ⟨0x0018⟩, constant := some 9 }

theorem declares_limit : (world.type gauge).declaredField? "LIMIT" "B" = some limit := by
  decide +kernel

theorem holds_limit : (world.type gauge).static[limit.offset]? = some (.int 300) := by
  decide +kernel

end Gauges

/-- What is read of the byte of a `Dial` is a byte. -/
theorem Session.fields_in_range_dial : Gauges.session.Abides World.StoresNarrowly ∧
    Gauges.world ∈ Gauges.session.worlds ∧
    ∀ value, Gauges.world.fetch Gauges.level (.object Gauges.object) = .ok value →
      value.narrow (.primitive .byte) = value := by
  refine ⟨Gauges.abides_narrowly, Gauges.met, fun value fetched => ?_⟩
  obtain ⟨_, _, reads⟩ := Session.fields_in_range Gauges.abides_narrowly Gauges.met
  have has : Gauges.world.HasField Gauges.level (.object Gauges.object) :=
    Gauges.addresses.hasField rfl
  rcases reads (.object Gauges.object) Gauges.level value has fetched with
    narrowed | ⟨_, _, isFinal, _⟩
  · exact narrowed
  · exact absurd isFinal (by decide)

/-- Nothing is stored out of the range, but the constant field of `Gauge` holds no byte. -/
theorem constant_out_of_range : Gauges.session.Abides World.StoresNarrowly ∧
    Gauges.world ∈ Gauges.session.worlds ∧
    (Gauges.world.type Gauges.gauge).declaredField? "LIMIT" "B" = some Gauges.limit ∧
    Gauges.limit.field.valueType = .primitive .byte ∧
    Gauges.world.fetch Gauges.limit (.type Gauges.gauge) = .ok (.int 300) ∧
    (Value.int 300).narrow (.primitive .byte) ≠ .int 300 := by
  have met : Gauges.world.Met := ⟨Gauges.session, Gauges.met⟩
  have has : Gauges.world.HasField Gauges.limit (.type Gauges.gauge) :=
    ⟨by decide, "LIMIT", "B", Gauges.declares_limit⟩
  have fetched := (met.clean.sound.fetch_eq_ok has).2 ⟨Gauges.holds_limit, by decide⟩
  exact ⟨Gauges.abides_narrowly, Gauges.met, Gauges.declares_limit, rfl, fetched, by decide⟩

end JavaMachine
