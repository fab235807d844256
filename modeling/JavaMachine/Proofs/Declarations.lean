import JavaMachine.Proofs.Assignability
import JavaMachine.Proofs.Fields
import JavaMachine.Proofs.Visibility

/-!
# What a class declares

Tables find a method by its name and descriptor, and layouts a field by the name of its class as
well. Where names are without blanks these keys tell the members of a class apart. A layout holds
what is declared above too, so it tells a field of the class from one above only if no class above
has the same name; that holds as long as directories are spared.
-/

namespace JavaMachine

/-- Names without blanks end where the first blanks of the key are. -/
theorem fieldKey_eq_of_names {owner name descriptor ownerToo first second : String}
    (same : fieldKey owner name descriptor = fieldKey ownerToo first second)
    (plain : ' ' ∉ owner.toList) (plainToo : ' ' ∉ ownerToo.toList) (none : ' ' ∉ name.toList)
    (noneFirst : ' ' ∉ first.toList) : owner = ownerToo ∧ name = first ∧ descriptor = second := by
  have nested (owner name descriptor : String) :
      fieldKey owner name descriptor = methodKey owner (methodKey name descriptor) := by
    simp [fieldKey, methodKey, String.append_assoc]
  rw [nested, nested] at same
  obtain ⟨owners, rest⟩ := MethodTables.methodKey_eq_of_names same plain plainToo
  exact ⟨owners, MethodTables.methodKey_eq_of_names rest none noneFirst⟩

/-- No member in the file has a blank in its name. -/
def ClassFile.isPlain (file : ClassFile) : Bool :=
  (file.methods.map Member.name ++ file.fields.map Member.name).all fun index =>
    (file.requireText index).toOption.all fun name => !name.toList.contains ' '

theorem Field.ofMember_ok {file : ClassFile} {owner : ClassId} {className : String}
    {member : Member FieldFlags} {field : Field}
    (read : ofMember file owner className member = .ok field) :
    file.requireText member.name = .ok field.name ∧
      file.requireText member.descriptor = .ok field.descriptor := by
  obtain ⟨name, named, read⟩ := Except.bind_ok read
  obtain ⟨descriptor, described, read⟩ := Except.bind_ok read
  split at read
  · cases read
  · obtain ⟨constant, _, read⟩ := Except.bind_ok read
    cases read
    exact ⟨named, described⟩

section IsPlain

variable {file : ClassFile} (plain : file.isPlain) {owner : ClassId} {className : String}
include plain

theorem ClassFile.not_mem_of_isPlain {index : UInt16} {text : String}
    (listed : index ∈ file.methods.map Member.name ++ file.fields.map Member.name)
    (read : file.requireText index = .ok text) : ' ' ∉ text.toList := by
  have known := List.all_eq_true.1 plain index listed
  rw [read] at known
  simpa [Except.toOption] using known

theorem ClassFile.not_mem_name_method {member : Member MethodFlags} {method : Method}
    (listed : member ∈ file.methods)
    (read : Method.ofMember file owner className member = .ok method) :
    ' ' ∉ method.name.toList :=
  not_mem_of_isPlain plain (List.mem_append_left _ (List.mem_map_of_mem listed))
    (Method.ofMember_ok read).1

theorem ClassFile.not_mem_name_field {member : Member FieldFlags} {field : Field}
    (listed : member ∈ file.fields)
    (read : Field.ofMember file owner className member = .ok field) :
    ' ' ∉ field.name.toList :=
  not_mem_of_isPlain plain (List.mem_append_right _ (List.mem_map_of_mem listed))
    (Field.ofMember_ok read).1

end IsPlain

/-! ### Layouts by key -/

namespace FieldLayout

variable {file : ClassFile} {owner : ClassId} {className : String} {layout later : FieldLayout}
variable {members : List (Member FieldFlags)} {slot : FieldSlot} {field : Field} {key : String}

/-- The field under a key, those of instances first. -/
def find? (layout : FieldLayout) (key : String) : Option FieldSlot :=
  (findSlot? layout.slots key).or (layout.static.find? key)

/-- A field is added under a new key and changes nothing for other keys. -/
theorem find?_of_add (added : layout.add className field = .ok later) :
    layout.find? field.key = none ∧ ∀ key, (later.find? key).map FieldSlot.field =
      if field.key = key then some field else (layout.find? key).map FieldSlot.field := by
  obtain ⟨absent, slots, static⟩ := add_ok added
  have absentToo := find?_static_of_add added
  refine ⟨by rw [find?, absent, absentToo]; rfl, fun key => ?_⟩
  rw [find?, slots, static]
  split
  · rw [Table.find?_insert]
    split
    next same =>
      rw [← same, absent]
      rfl
    next => rfl
  · rw [findSlot?, List.find?_append, ← findSlot?, List.find?_singleton]
    by_cases same : field.key = key
    · simp [← same, absent]
    · simp [same, find?]

/-- The fields added are found under their keys. -/
theorem find?_addAll (added : addAll file owner className members layout = .ok later)
    (key : String) : (later.find? key).map FieldSlot.field = some field ↔
      (layout.find? key).map FieldSlot.field = some field ∨
        field.key = key ∧ ∃ member ∈ members,
          Field.ofMember file owner className member = .ok field := by
  induction members generalizing layout with
  | nil =>
      cases added
      simp
  | cons member rest inductionHypothesis =>
      obtain ⟨first, read, added⟩ := Except.bind_ok added
      obtain ⟨middle, addedFirst, added⟩ := Except.bind_ok added
      obtain ⟨absent, keys⟩ := find?_of_add addedFirst
      rw [inductionHypothesis added, keys]
      constructor
      · rintro (here | ⟨sameKey, other, membership, readOther⟩)
        · split at here
          next same =>
            cases here
            exact .inr ⟨same, member, List.mem_cons_self, read⟩
          next => exact .inl here
        · exact .inr ⟨sameKey, other, List.mem_cons_of_mem _ membership, readOther⟩
      · rintro (before | ⟨sameKey, other, membership, readOther⟩)
        · have distinct : first.key ≠ key := by
            rintro rfl
            rw [absent] at before
            cases before
          rw [if_neg distinct]
          exact .inl before
        · rcases List.mem_cons.1 membership with same | among
          · rw [same, read] at readOther
            cases readOther
            exact .inl (if_pos sameKey)
          · exact .inr ⟨sameKey, other, among, readOther⟩

theorem find?_inherit (slots : List FieldSlot) (interfaces : List (List FieldSlot)) :
    (inherit slots interfaces).find? key = findSlot? (inherit slots interfaces).slots key := by
  rw [find?]
  exact Option.or_none

theorem Lawful.find?_of_mem (lawful : layout.Lawful) (among : slot ∈ layout.slots) :
    layout.find? slot.field.key = some slot := by
  rw [find?, (findSlot?_eq_some lawful.distinct).2 ⟨among, rfl⟩, Option.some_or]

theorem holds_of_find? (found : layout.find? key = some slot) : layout.Holds slot.field := by
  rcases Option.or_eq_some_iff.1 found with among | ⟨_, static⟩
  · exact .slot (List.mem_of_find?_eq_some among) rfl
  · exact .static static rfl

end FieldLayout

theorem Class.declaredField?_eq (type : Class) (name descriptor : String) :
    type.declaredField? name descriptor =
      type.fields.find? (fieldKey type.name name descriptor) := rfl

namespace World

variable {world : World} {id type : ClassId} {linkage : Linkage} {name descriptor key : String}
variable {method : Method} {field : Field} {slot : FieldSlot}

/-! ### Members of a file -/

/-- The file of a class declares the field. -/
def DeclaresField (world : World) (id : ClassId) (field : Field) : Prop :=
  ∃ file, (world.type id).file? = some file ∧ ∃ member ∈ file.fields,
    Field.ofMember file id (world.type id).name member = .ok field

theorem DeclaresField.owner (declares : world.DeclaresField id field) :
    field.owner = id ∧ field.ownerName = (world.type id).name := by
  obtain ⟨_, _, _, _, read⟩ := declares
  exact Field.ofMember_owner read

/-- The class declares the method, by that name and descriptor. -/
structure MethodIn (world : World) (id : ClassId) (name descriptor : String) (method : Method) :
    Prop where
  declares : world.Declares id method
  name : method.name = name
  descriptor : method.descriptor = descriptor

/-- The class declares a method by that name and descriptor. -/
def DeclaresMethod (world : World) (name descriptor : String) (id : ClassId) : Prop :=
  ∃ method, world.MethodIn id name descriptor method

/-- The class declares the field, by that name and descriptor. -/
structure FieldIn (world : World) (id : ClassId) (name descriptor : String) (field : Field) :
    Prop where
  declares : world.DeclaresField id field
  name : field.name = name
  descriptor : field.descriptor = descriptor

/-- The class has no blank in its name, nor have the members that it declares in theirs. -/
structure Plain (world : World) (id : ClassId) : Prop where
  name : ' ' ∉ (world.type id).name.toList
  methods : ∀ method, world.Declares id method → ' ' ∉ method.name.toList
  fields : ∀ field, world.DeclaresField id field → ' ' ∉ field.name.toList

/-- No class above has the same name. -/
def Unrivalled (world : World) (id : ClassId) : Prop :=
  ∀ type, world.Reaches id type → (world.type type).name = (world.type id).name → type = id

/-- No two classes have one name and are above each other. -/
def Apart (world : World) (id : ClassId) : Prop :=
  ∀ type, world.Reaches id type → world.Unrivalled type

/-- Names are without blanks if those in the file of the class are. -/
theorem plain_of_file (name : ' ' ∉ (world.type id).name.toList)
    (plain : ∀ file, (world.type id).file? = some file → file.isPlain) : world.Plain id where
  name := name
  methods := by
    rintro method ⟨file, declared, member, listed, read⟩
    exact ClassFile.not_mem_name_method (plain file declared) listed read
  fields := by
    rintro field ⟨file, declared, member, listed, read⟩
    exact ClassFile.not_mem_name_field (plain file declared) listed read

/-- Names are without blanks if those in the files of all classes are. -/
theorem plain_of_files (plain : ∀ type ∈ world.classes,
    ' ' ∉ type.name.toList ∧ ∀ file, type.file? = some file → file.isPlain) (id : ClassId) :
    world.Plain id := by
  have here : ' ' ∉ (world.type id).name.toList ∧
      ∀ file, (world.type id).file? = some file → file.isPlain := by
    rcases Nat.lt_or_ge id.index world.classes.size with present | absent
    · rw [type_eq_of_getElem? (Array.getElem?_eq_getElem present)]
      exact plain _ (Array.getElem_mem present)
    · rw [type_eq_default absent]
      refine ⟨List.not_mem_nil, fun file declared => ?_⟩
      cases declared
      rfl
  exact plain_of_file here.1 here.2

/-! ### What is found under a key -/

/-- Layouts have the fields that classes declare. -/
theorem Sound.find?_of_declaresField (sound : world.Sound)
    (linked : (world.type id).linkage? = some linkage) (declares : world.DeclaresField id field) :
    ((world.type id).fields.find? field.key).map FieldSlot.field = some field := by
  obtain ⟨file, isFile, fits⟩ := sound.fits linked
  obtain ⟨same, isFileToo, declared⟩ := declares
  cases isFile.symm.trans isFileToo
  rw [fields_of_linkage? linked]
  exact (FieldLayout.find?_addAll fits.fields _).2 (.inr ⟨rfl, declared⟩)

/-- What is found in a layout before own fields are added has a slot with one of the supertypes. -/
theorem exists_of_layoutAbove {superclass : Option ClassId} {interfaces : List ClassId}
    (found : (world.layoutAbove superclass interfaces).find? key = some slot) :
    slot.field.key = key ∧ ∃ supertype ∈ superclass.toList ++ interfaces,
      ∃ other ∈ (world.type supertype).fields.slots, other.field = slot.field := by
  rw [layoutAbove, FieldLayout.find?_inherit] at found
  refine ⟨by simpa using List.find?_some found, ?_⟩
  rcases FieldLayout.mem_inherit (List.mem_of_find?_eq_some found) with
    fromSuperclass | ⟨slots, isInterface, among⟩
  · cases superclass with
    | none => cases fromSuperclass
    | some superclass => exact ⟨superclass, by simp, slot, fromSuperclass, rfl⟩
  · obtain ⟨interface, declared, rfl⟩ := List.mem_map.1 isInterface
    obtain ⟨other, membership, same⟩ := List.mem_map.1 among
    exact ⟨interface, List.mem_append_right _ declared, other, membership, same⟩

/-- What is found in a layout under a key has the key, and the class or one above declares it. -/
theorem Sound.declares_of_find? (sound : world.Sound)
    (found : (world.type id).fields.find? key = some slot) :
    slot.field.key = key ∧ ∃ type, world.Reaches id type ∧ world.DeclaresField type slot.field := by
  induction height : world.linkedHeight id using Nat.strongRecOn generalizing id slot key with
  | ind height inductionHypothesis =>
      obtain ⟨linkage, linked⟩ :=
        Option.isSome_iff_exists.1 (linked_of_holds (FieldLayout.holds_of_find? found))
      obtain ⟨file, isFile, fits⟩ := sound.fits linked
      have field := congrArg (Option.map FieldSlot.field) found
      rw [fields_of_linkage? linked, Option.map_some,
        FieldLayout.find?_addAll fits.fields] at field
      rcases field with inherited | ⟨sameKey, member, listed, read⟩
      · obtain ⟨inheritedSlot, foundAbove, sameField⟩ := Option.map_eq_some_iff.1 inherited
        obtain ⟨sameKey, supertype, isSupertype, other, membership, same⟩ :=
          exists_of_layoutAbove foundAbove
        obtain ⟨_, type, reaches, declares⟩ :=
          inductionHypothesis _ (height ▸ sound.linkedHeight_lt linked isSupertype)
            ((sound.lawful_fields supertype).find?_of_mem membership) rfl
        rw [same, sameField] at declares
        rw [sameField] at sameKey
        have step : supertype ∈ (world.type id).supertypes := by
          rwa [supertypes_of_linkage linked]
        exact ⟨sameKey, type, .head step reaches, declares⟩
      · exact ⟨sameKey, id, .refl, file, isFile, member, listed, read⟩

section Plain

variable (sound : world.Sound) (linked : ∃ linkage, (world.type id).linkage? = some linkage)
include sound linked

/-- A class finds the methods that it declares by their names and descriptors. -/
theorem Sound.declaredMethod?_eq_some (plain : world.Plain id) (unbroken : ' ' ∉ name.toList) :
    (world.type id).declaredMethod? name descriptor = some method ↔
      world.MethodIn id name descriptor method := by
  obtain ⟨linkage, linked⟩ := linked
  rw [Class.declaredMethod?, sound.find?_declared linked]
  constructor
  · rintro ⟨sameKey, declares⟩
    obtain ⟨names, descriptors⟩ :=
      MethodTables.methodKey_eq_of_names sameKey (plain.methods method declares) unbroken
    exact ⟨declares, names, descriptors⟩
  · rintro ⟨declares, rfl, rfl⟩
    exact ⟨rfl, declares⟩

/-- A class finds the fields that it declares by their names and descriptors, unless a class above
has its name. -/
theorem Sound.declaredField?_eq_some (plain : ∀ type, world.Reaches id type → world.Plain type)
    (unrivalled : world.Unrivalled id) (unbroken : ' ' ∉ name.toList) :
    ((world.type id).declaredField? name descriptor).map FieldSlot.field = some field ↔
      world.FieldIn id name descriptor field := by
  obtain ⟨linkage, linked⟩ := linked
  rw [Class.declaredField?_eq]
  constructor
  · intro found
    obtain ⟨slot, standing, rfl⟩ := Option.map_eq_some_iff.1 found
    obtain ⟨sameKey, type, reaches, declares⟩ := sound.declares_of_find? standing
    rw [Field.key, declares.owner.2] at sameKey
    obtain ⟨owners, names, descriptors⟩ := fieldKey_eq_of_names sameKey (plain type reaches).name
      (plain id .refl).name ((plain type reaches).fields _ declares) unbroken
    cases unrivalled type reaches owners
    exact ⟨declares, names, descriptors⟩
  · rintro ⟨declares, rfl, rfl⟩
    rw [← declares.owner.2]
    exact sound.find?_of_declaresField linked declares

end Plain

/-! ### Classes of one name -/

/-- A loader leads by a name to one class only, and sees what is above the classes that it sees. -/
theorem Intact.apart (intact : world.Intact) (loaded : world.Loaded id)
    (linked : ∃ linkage, (world.type id).linkage? = some linkage) : world.Apart id := by
  intro type reaches above reachesAbove named
  have sees := intact.regular.sees_of_reaches intact.sound (intact.registered loaded).sees reaches
  have seesAbove := intact.regular.sees_of_reaches intact.sound sees reachesAbove
  obtain ⟨_, linkedType⟩ := intact.sound.reaches_linked linked reaches
  exact (intact.regular.sees_unique intact.sound sees (Class.not_isArray_of_linkage? linkedType)
    seesAbove named.symm).symm

end World

/-! ### Files with members -/

/-- The file of a type with methods and fields of the given names, descriptors and flags. -/
def ClassFile.withMembers (flags : UInt16) (name superclass : String) (interfaces : List String)
    (methods fields : List (String × String × UInt16)) : ClassFile :=
  let file : ClassFile := .withoutMembers flags name superclass interfaces
  -- the name and the descriptor of a member stand one after the other behind the classes
  let index (place : Nat) := UInt16.ofNat (file.pool.length + 2 * place + 1)
  { file with
    pool := file.pool ++ (methods ++ fields).flatMap fun (name, descriptor, _) =>
      [.utf8 (Text.ModifiedUtf8.encode name), .utf8 (Text.ModifiedUtf8.encode descriptor)]
    methods := methods.zipIdx.map fun ((_, _, flags), place) =>
      ⟨⟨flags⟩, index place, index place + 1, []⟩
    fields := (fields.zipIdx methods.length).map fun ((_, _, flags), place) =>
      ⟨⟨flags⟩, index place, index place + 1, []⟩ }

end JavaMachine
