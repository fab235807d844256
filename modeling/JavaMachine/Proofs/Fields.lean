import JavaMachine.Proofs.Undisturbed

/-!
# Fields of instances

The layout of a linked class begins with that of its superclass and goes on with the fields of its
declared interfaces and its own. So a field that a class has from a superclass stands where it stood
there, and one that it has from an interface may stand somewhere else.
-/

namespace JavaMachine

/-! ### A class with fields from everywhere -/

set_option maxRecDepth 20000

namespace Mixed

/-- The file of a class whose fields are ints; those differ by their flags. -/
def file (flags : UInt16) (name superclass : String) (interfaces : List String)
    (fields : List (String × UInt16)) : ClassFile :=
  let file : ClassFile := .withoutMembers flags name superclass interfaces
  let texts := "I" :: fields.map Prod.fst
  let descriptor := UInt16.ofNat (file.pool.length + 1)
  { file with
    pool := file.pool ++ texts.map fun text => .utf8 (Text.ModifiedUtf8.encode text)
    fields := fields.zipIdx.map fun ((_, flags), place) =>
      ⟨⟨flags⟩, descriptor + 1 + UInt16.ofNat place, descriptor, []⟩ }

/-- `C` has a field from its superclass, one from its interface and two of its own, of which one is
static. `D` has the interface once more and hides the field of the superclass. -/
def files : List (String × ClassFile) :=
  [("java/lang/Object", file 0x0021 "java/lang/Object" "" [] []),
    ("Super", file 0x0021 "Super" "java/lang/Object" [] [("a", 0)]),
    ("I", file 0x0601 "I" "java/lang/Object" [] [("x", 0)]),
    ("C", file 0x0021 "C" "Super" ["I"] [("s", 0x0008), ("b", 0)]),
    ("D", file 0x0021 "D" "C" ["I"] [("a", 0)])]

def d : ClassId := ⟨0⟩
def c : ClassId := ⟨1⟩
def super : ClassId := ⟨2⟩
def root : ClassId := ⟨3⟩

/-- Loads the classes and allocates an instance of the last one. -/
def program : Program Unit (Except Error ObjectId) := do
  discard (Program.ask (.load .bootstrap "D"))
  Program.ask (.allocateInstance d .none)

/-- The world after that. -/
def world : World :=
  (program.runWith (fun _ _ => .done (.ok none)) 0 ⟨.initial [.holding files], ()⟩).2.world

theorem reachable : world.Reachable := ⟨Unit, _, _, 0, program, _, (), rfl⟩

theorem linked : (world.type d).linkage?.isSome ∧ (world.type c).linkage?.isSome ∧
    (world.type super).linkage?.isSome := by
  decide +kernel

theorem superclasses : (world.type d).superclass? = some c ∧
    (world.type c).superclass? = some super := by
  decide +kernel

/-- `Super` declares its field itself. -/
theorem search_super :
    ((world.findField super "a" "I").map fun slot => slot.field.isStatic) = some false ∧
      world.fieldOrder super = [super, root] ∧
      (world.type super).declaredField? "a" "I" ≠ none := by
  decide +kernel

/-- Where a search leads from `C`, what stands there and where the field stands. -/
theorem search_c :
    ((world.findField c "x" "I").map fun slot =>
        (slot.offset, slot.field.name, slot.field.isStatic)) = some (0, "x", false) ∧
      ((world.type c).fields.slots[0]?.map fun slot => slot.field.name) = some "a" ∧
      ((world.type c).instanceField? "I" "x" "I").map FieldSlot.offset = some 1 := by
  decide +kernel

end Mixed

namespace World

variable {world : World} {id : ClassId} {linkage : Linkage}

/-! ### Layouts of linked classes -/

/-- The layout from which a class starts whose supertypes have lawful ones. -/
theorem lawful_inherited (above : ∀ supertype ∈ linkage.supertypes,
    (world.type supertype).fields.Lawful) :
    (FieldLayout.inherit (world.inheritedFields linkage.superclass).slots
      (linkage.interfaces.map fun interface => (world.type interface).fields.slots)).Lawful := by
  apply FieldLayout.lawful_inherit
  · cases isSuperclass : linkage.superclass with
    | none => exact FieldLayout.lawful_empty
    | some superclass => exact above superclass (mem_supertypes_of_superclass isSuperclass)
  · intro inherited membership
    obtain ⟨interface, declared, same⟩ := List.mem_map.1 membership
    rw [← same]
    exact (above interface (mem_supertypes_of_interface declared)).instances

/-- All layouts are lawful. -/
theorem Sound.lawful_fields (sound : world.Sound) (id : ClassId) :
    (world.type id).fields.Lawful := by
  induction height : world.linkedHeight id using Nat.strongRecOn generalizing id with
  | ind height inductionHypothesis =>
      cases linked : (world.type id).linkage? with
      | none =>
          rw [Class.fields, linked]
          exact FieldLayout.lawful_empty
      | some linkage =>
          obtain ⟨file, _, fits⟩ := sound.fits linked
          rw [fields_of_linkage? linked]
          refine (lawful_inherited fun supertype step => ?_).addAll fits.fields
          exact inductionHypothesis _ (height ▸ sound.linkedHeight_lt linked step) supertype rfl

/-- The fields of the declared interfaces, those of the first one first. -/
def interfaceFields (world : World) (id : ClassId) : List Field :=
  (world.type id).interfaces.flatMap fun interface =>
    (world.type interface).fields.slots.map FieldSlot.field

/-- The layout of the superclass, if there is one. -/
def slotsAbove (world : World) (id : ClassId) : List FieldSlot :=
  (world.inheritedFields (world.type id).superclass?).slots

theorem Sound.slotsAbove_numbered (sound : world.Sound) (id : ClassId) :
    world.slotsAbove id = FieldLayout.layOut ((world.slotsAbove id).map FieldSlot.field) := by
  rw [slotsAbove]
  cases (world.type id).superclass? with
  | none => rfl
  | some superclass => exact (sound.lawful_fields superclass).numbered

/-- The layout of a linked class, field by field. -/
theorem Sound.slots_eq (sound : world.Sound) (linked : (world.type id).linkage? = some linkage) :
    ∃ file own, (world.type id).file? = some file ∧
      FieldLayout.Reads file id (world.type id).name file.fields own ∧
      (world.type id).fields.slots = FieldLayout.layOut
        ((world.slotsAbove id).map FieldSlot.field ++
          FieldLayout.missing ((world.slotsAbove id).map fun slot => slot.field.key)
            (world.interfaceFields id) ++ own.filter fun field => !field.isStatic) := by
  obtain ⟨file, declared, fits⟩ := sound.fits linked
  have superclass := Class.superclass?_of_linkage linked
  have interfaces := Class.interfaces_of_linkage linked
  have lawful := lawful_inherited fun supertype (_ : supertype ∈ linkage.supertypes) =>
    sound.lawful_fields supertype
  obtain ⟨own, reads, slots⟩ := FieldLayout.slots_addAll lawful fits.fields
  refine ⟨file, own, declared, reads, ?_⟩
  have inherited := FieldLayout.slots_inherit ((world.slotsAbove id).map FieldSlot.field)
    (linkage.interfaces.map fun interface => (world.type interface).fields.slots)
  rw [← sound.slotsAbove_numbered, List.map_map, List.flatMap_map, ← interfaces,
    ← interfaceFields] at inherited
  rw [fields_of_linkage? linked, slots, ← superclass, ← slotsAbove, ← interfaces, inherited,
    FieldLayout.map_field_layOut]
  rfl

/-- The layout of the superclass comes first. -/
theorem Sound.slotsAbove_prefix (sound : world.Sound)
    (linked : (world.type id).linkage? = some linkage) :
    world.slotsAbove id <+: (world.type id).fields.slots := by
  obtain ⟨_, _, _, _, slots⟩ := sound.slots_eq linked
  rw [slots, List.append_assoc, sound.slotsAbove_numbered id]
  simp only [FieldLayout.map_field_layOut]
  exact FieldLayout.layOut_prefix_append _ _

/-! ### New instances -/

theorem runFrom_allocateInstance (linked : (world.type id).linkage? = some linkage)
    (attachment : Attachment) :
    runFrom world (allocateInstance id attachment) =
      (.ok ⟨world.objects.size⟩, (world.addObject
        { type := id, body := .record (freshFields linkage.fields) attachment }).2) := by
  obtain ⟨body, declared, attached⟩ := Option.bind_eq_some_iff.1 linked
  rw [allocateInstance, runFrom_bind_ok runFrom_get]
  dsimp only
  rw [declared]
  dsimp only
  rw [attached]
  rfl

/-- The layout of the instances of a linked class: each field stands at its offset and no key twice;
the superclass's layout is first and stays as it is, then come the fields of the declared interfaces
that are new, then the class's own that are not static. The fields are found by their keys, and a
new instance has the default value in each. -/
theorem instance_layout (reachable : world.Reachable) (linked : (world.type id).linkage?.isSome) :
    let slots := (world.type id).fields.slots
    (∀ (offset : Nat) slot, slots[offset]? = some slot → slot.offset = offset) ∧
      (∀ superclass, (world.type id).superclass? = some superclass →
        (world.type superclass).fields.slots <+: slots) ∧
      (slots.map fun slot => slot.field.key).Nodup ∧
      (∃ file own, (world.type id).file? = some file ∧
        FieldLayout.Reads file id (world.type id).name file.fields own ∧
        slots.map FieldSlot.field = (world.slotsAbove id).map FieldSlot.field ++
          FieldLayout.missing ((world.slotsAbove id).map fun slot => slot.field.key)
            (world.interfaceFields id) ++ own.filter fun field => !field.isStatic) ∧
      (∀ owner name descriptor slot,
        (world.type id).instanceField? owner name descriptor = some slot ↔
          slot ∈ slots ∧ slot.field.key = fieldKey owner name descriptor) ∧
      ∀ attachment, ∃ object values later,
        runFrom world (allocateInstance id attachment) = (.ok object, later) ∧
          later.object object = { type := id, body := .record values attachment } ∧
          values.toList = slots.map fun slot => Value.default slot.field.valueType := by
  intro slots
  have sound := reachable.inOrder.sound
  have lawful := sound.lawful_fields id
  obtain ⟨linkage, linked⟩ := Option.isSome_iff_exists.1 linked
  refine ⟨fun _ _ => lawful.offset_eq, ?_, lawful.distinct, ?_, ?_, ?_⟩
  · intro superclass above
    have first := sound.slotsAbove_prefix linked
    rwa [slotsAbove, above] at first
  · obtain ⟨file, own, declared, reads, slotsEq⟩ := sound.slots_eq linked
    refine ⟨file, own, declared, reads, ?_⟩
    simp only [slots]
    rw [slotsEq, FieldLayout.map_field_layOut]
  · exact fun _ _ _ _ => FieldLayout.findSlot?_eq_some lawful.distinct
  · intro attachment
    refine ⟨_, _, _, runFrom_allocateInstance linked attachment, object_added _ _, ?_⟩
    simp only [slots]
    rw [freshFields, fields_of_linkage? linked]

/-- `D` keeps the fields of `C`, of which the second comes from the interface, and adds its own. -/
theorem instance_layout_mixed :
    Mixed.world.Reachable ∧ (Mixed.world.type Mixed.d).linkage?.isSome ∧
      (Mixed.world.type Mixed.d).superclass? = some Mixed.c ∧
      (Mixed.world.type Mixed.c).fields.slots <+: (Mixed.world.type Mixed.d).fields.slots ∧
      ∃ object values later,
        runFrom Mixed.world (allocateInstance Mixed.d .none) = (.ok object, later) ∧
          later.object object = { type := Mixed.d, body := .record values .none } ∧
          values.toList = (Mixed.world.type Mixed.d).fields.slots.map fun slot =>
            Value.default slot.field.valueType := by
  obtain ⟨_, above, _, _, _, allocates⟩ := instance_layout Mixed.reachable Mixed.linked.1
  exact ⟨Mixed.reachable, Mixed.linked.1, Mixed.superclasses.1,
    above Mixed.c Mixed.superclasses.1, allocates .none⟩

/-- What comes out for `D`. -/
example : (Mixed.world.type Mixed.d).fields.slots.map (fun slot => (slot.offset, slot.field.key)) =
    [(0, "Super a I"), (1, "I x I"), (2, "C b I"), (3, "D a I")] := by
  decide +kernel

/-! ### Looking for a field -/

/-- A field is found with the first type on the walk that declares one. -/
theorem findField_eq_some {name descriptor : String} {slot : FieldSlot}
    (found : world.findField id name descriptor = some slot) :
    ∃ before declarer after, world.fieldOrder id = before ++ declarer :: after ∧
      (∀ type ∈ before, (world.type type).declaredField? name descriptor = none) ∧
      (world.type declarer).declaredField? name descriptor = some slot ∧
      world.Reaches id declarer := by
  obtain ⟨before, declarer, after, order, declares, none⟩ := List.findSome?_eq_some_iff.1 found
  refine ⟨before, declarer, after, order, none, declares, ?_⟩
  have visited : declarer ∈ world.fieldOrder id := by simp [order]
  rcases reaches_of_mem_fieldOrderAfter (List.mem_reverse.1 visited) with none | reaches
  · cases none
  · exact reaches

/-- A declared field that is not static stands among the fields of an instance. -/
theorem Sound.mem_slots_of_declared (sound : world.Sound) {name descriptor : String}
    {slot : FieldSlot} (declares : (world.type id).declaredField? name descriptor = some slot)
    (dynamic : ¬ slot.field.isStatic) :
    slot ∈ (world.type id).fields.slots ∧
      slot.field.key = fieldKey (world.type id).name name descriptor := by
  have lawful := sound.lawful_fields id
  rcases Option.or_eq_some_iff.1 declares with among | ⟨_, static⟩
  · exact (FieldLayout.findSlot?_eq_some lawful.distinct).1 among
  · exact absurd (lawful.statics _ slot static) dynamic

/-! ### Places in subclasses -/

/-- A class has fields with the keys of all fields of the types above. -/
theorem Sound.key_mem_of_reaches (sound : world.Sound) {type : ClassId} {slot : FieldSlot}
    (linked : ∃ linkage, (world.type id).linkage? = some linkage)
    (reaches : world.Reaches id type) (membership : slot ∈ (world.type type).fields.slots) :
    slot.field.key ∈ (world.type id).fields.slots.map fun slot => slot.field.key := by
  induction reaches using Relation.ReflTransGen.head_induction_on with
  | refl => exact List.mem_map_of_mem membership
  | @head id supertype step _ inductionHypothesis =>
      have known := inductionHypothesis (sound.reaches_linked linked (.single step))
      obtain ⟨linkage, linked⟩ := linked
      rcases List.mem_append.1 step with superclass | interface
      · have above := sound.slotsAbove_prefix linked
        rw [slotsAbove, Option.mem_toList.1 superclass] at above
        exact (above.map _).subset known
      · obtain ⟨_, _, _, _, slots⟩ := sound.slots_eq linked
        rw [slots, FieldLayout.keys_layOut]
        obtain ⟨inherited, among, same⟩ := List.mem_map.1 known
        have field : inherited.field ∈ world.interfaceFields id :=
          List.mem_flatMap.2 ⟨supertype, interface, List.mem_map_of_mem among⟩
        rw [← same, List.map_append, List.map_append, List.map_map, List.append_assoc,
          ← List.append_assoc]
        apply List.mem_append_left
        exact List.mem_append.2 (FieldLayout.key_mem_missing field)

/-- What stands in the layout of a class stands at the same place in those of its subclasses. -/
theorem Sound.slots_prefix_of_inherits (sound : world.Sound) {type : ClassId}
    (linked : ∃ linkage, (world.type type).linkage? = some linkage)
    (inherits : world.Inherits type id) :
    (world.type id).fields.slots <+: (world.type type).fields.slots := by
  induction inherits using Relation.ReflTransGen.head_induction_on with
  | refl => exact List.prefix_rfl
  | @head type superclass step _ inductionHypothesis =>
      have reaches : world.Reaches type superclass :=
        .single (Class.mem_supertypes_of_superclass step)
      have rest := inductionHypothesis (sound.reaches_linked linked reaches)
      obtain ⟨linkage, linked⟩ := linked
      have above := sound.slotsAbove_prefix linked
      rw [slotsAbove, step] at above
      exact rest.trans above

end World

/-- Reading and writing a field of an instance goes to one value and no other. -/
structure Object.Accesses (object : Object) (slot : FieldSlot) (values : Array Value)
    (attachment : Attachment) (place : Nat) : Prop where
  get : ∃ value, values[place]? = some value ∧ ∀ className,
    object.getField className (some slot) =
      if value.fits slot.field.valueType then .ok value
      else .error (.internal (.wrongContent slot.field.key value.shape))
  put : ∀ className (value : Value), value.fits slot.field.valueType →
    object.putField className (some slot) value = .ok { object with
      body := .record (values.setIfInBounds place value) attachment }

theorem Object.accesses_of_body {object : Object} {slot : FieldSlot} {values : Array Value}
    {attachment : Attachment} (body : object.body = .record values attachment)
    (present : slot.offset < values.size) :
    object.Accesses slot values attachment slot.offset where
  get := by
    refine ⟨values[slot.offset], Array.getElem?_eq_getElem present, fun className => ?_⟩
    simp [Object.getField, body, present]
  put className value fits := by
    simp [Object.putField, body, present, fits]

namespace World

variable {world : World} {id : ClassId}

/-- The field to which a search leads has its place in the layout of the type that declares it, and
the class has a field with the same key. Where the declaring type is the class itself or one of its
superclasses, the place is the same in the class and all its subclasses, and reading and writing the
field of an instance goes to the value there. -/
theorem found_field (reachable : world.Reachable) (linked : (world.type id).linkage?.isSome)
    {name descriptor : String} {slot : FieldSlot}
    (found : world.findField id name descriptor = some slot) (dynamic : ¬ slot.field.isStatic) :
    ∃ before declarer after, world.fieldOrder id = before ++ declarer :: after ∧
      (∀ type ∈ before, (world.type type).declaredField? name descriptor = none) ∧
      world.Reaches id declarer ∧
      slot.field.key = fieldKey (world.type declarer).name name descriptor ∧
      (world.type declarer).fields.slots[slot.offset]? = some slot ∧
      (∃ own, (world.type id).instanceField? (world.type declarer).name name descriptor =
        some own ∧ (world.type id).fields.slots[own.offset]? = some own) ∧
      (world.Inherits id declarer → ∀ type, (world.type type).linkage?.isSome →
        world.Inherits type id → (world.type type).fields.slots[slot.offset]? = some slot ∧
          ∀ object ∈ world.objects, object.type = type → ∀ values attachment,
            object.body = .record values attachment →
              object.Accesses slot values attachment slot.offset) := by
  have sound := reachable.inOrder.sound
  have linked := Option.isSome_iff_exists.1 linked
  obtain ⟨before, declarer, after, order, none, declares, reaches⟩ := findField_eq_some found
  obtain ⟨membership, key⟩ := sound.mem_slots_of_declared declares dynamic
  refine ⟨before, declarer, after, order, none, reaches, key,
    (sound.lawful_fields declarer).getElem?_offset membership, ?_, ?_⟩
  · have known := sound.key_mem_of_reaches linked reaches membership
    rw [key, ← FieldLayout.findSlot?_isSome] at known
    obtain ⟨own, foundOwn⟩ := Option.isSome_iff_exists.1 known
    have lawful := sound.lawful_fields id
    exact ⟨own, foundOwn,
      lawful.getElem?_offset ((FieldLayout.findSlot?_eq_some lawful.distinct).1 foundOwn).1⟩
  · intro above type linkedType inherits
    have linkedType := Option.isSome_iff_exists.1 linkedType
    have first := sound.slots_prefix_of_inherits linkedType (inherits.trans above)
    have lawful := sound.lawful_fields type
    have placed := lawful.getElem?_offset (first.subset membership)
    refine ⟨placed, fun object among same values attachment body => ?_⟩
    obtain ⟨linkage, linked, size⟩ := sound.objects object among values attachment body
    apply Object.accesses_of_body body
    rw [size, ← fields_of_linkage? linked, same]
    exact (List.getElem?_eq_some_iff.1 placed).1

/-- The field of `Super` stands at the same place in an instance of `D`, and is read and written
there. -/
theorem found_field_mixed :
    Mixed.world.Reachable ∧ (Mixed.world.type Mixed.super).linkage?.isSome ∧ ∃ slot,
      Mixed.world.findField Mixed.super "a" "I" = some slot ∧ ¬ slot.field.isStatic ∧
      (Mixed.world.type Mixed.d).fields.slots[slot.offset]? = some slot ∧
      ∀ object ∈ Mixed.world.objects, object.type = Mixed.d → ∀ values attachment,
        object.body = .record values attachment →
          object.Accesses slot values attachment slot.offset := by
  obtain ⟨static, order, declares⟩ := Mixed.search_super
  obtain ⟨slot, found, dynamic⟩ := Option.map_eq_some_iff.1 static
  have dynamic : ¬ slot.field.isStatic := by simp [dynamic]
  obtain ⟨before, declarer, after, sameOrder, none, _, _, _, _, places⟩ :=
    found_field Mixed.reachable Mixed.linked.2.2 found dynamic
  have inherits : Mixed.world.Inherits Mixed.d Mixed.super :=
    .head Mixed.superclasses.1 (.single Mixed.superclasses.2)
  have isSuper : declarer = Mixed.super := by
    rw [order] at sameOrder
    cases before with
    | nil => exact (List.cons.inj sameOrder).1.symm
    | cons first rest =>
        have absent := none first List.mem_cons_self
        rw [← (List.cons.inj sameOrder).1] at absent
        exact absurd absent declares
  have above : Mixed.world.Inherits Mixed.super declarer := isSuper ▸ .refl
  obtain ⟨placed, accesses⟩ := places above Mixed.d Mixed.linked.1 inherits
  exact ⟨Mixed.reachable, Mixed.linked.2.2, slot, found, dynamic, placed, accesses⟩

/-- The field that `C` has from its interface is found at the place that it has in the interface. In
an instance of `C` a field of the superclass stands there. -/
theorem found_field_of_interface :
    Mixed.world.Reachable ∧ (Mixed.world.type Mixed.c).linkage?.isSome ∧
      ∃ slot other own, Mixed.world.findField Mixed.c "x" "I" = some slot ∧
        ¬ slot.field.isStatic ∧
        (Mixed.world.type Mixed.c).fields.slots[slot.offset]? = some other ∧ other ≠ slot ∧
        (Mixed.world.type Mixed.c).instanceField? "I" "x" "I" = some own ∧
        own.offset ≠ slot.offset := by
  obtain ⟨search, above, own⟩ := Mixed.search_c
  obtain ⟨slot, found, same⟩ := Option.map_eq_some_iff.1 search
  obtain ⟨offset, sameName, dynamic⟩ : slot.offset = 0 ∧ slot.field.name = "x" ∧
      slot.field.isStatic = false := by simpa using same
  obtain ⟨other, standing, name⟩ := Option.map_eq_some_iff.1 above
  obtain ⟨ownSlot, foundOwn, ownOffset⟩ := Option.map_eq_some_iff.1 own
  refine ⟨Mixed.reachable, Mixed.linked.2.1, slot, other, ownSlot, found, by simp [dynamic],
    offset ▸ standing, ?_, foundOwn, by omega⟩
  rintro rfl
  rw [sameName] at name
  exact absurd name (by decide)

end World
end JavaMachine
