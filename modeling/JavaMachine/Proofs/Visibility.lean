import JavaMachine.Proofs.Hierarchy

/-!
# What can be seen of classes

A class is published once a directory leads to it, a loader has given it as an answer, or a class
that is published refers to it. In a vetted world every reference of a class leads to a class that
may be handed out, so nothing unlinked is published.
-/

namespace JavaMachine

/-- The method is in one of the tables. -/
inductive MethodTables.Holds (tables : MethodTables) (method : Method) : Prop where
  | declared {key : String} (found : tables.declared.find? key = some method)
  | virtual {key : String} (found : tables.virtual.find? key = some method)
  | nonvirtual {key : String} (found : tables.nonvirtual.find? key = some method)
  | static {key : String} (found : tables.static.find? key = some method)

/-- The field has a place in the layout. -/
inductive FieldLayout.Holds (layout : FieldLayout) (field : Field) : Prop where
  | slot {slot : FieldSlot} (membership : slot ∈ layout.slots) (same : slot.field = field)
  | static {key : String} {slot : FieldSlot} (found : layout.static.find? key = some slot)
      (same : slot.field = field)

/-- The class to which the result of a lookup refers: a class, or the owner of a method or field. -/
def ConstantKind.target? : (kind : ConstantKind) → kind.Meaning → Option ClassId
  | .classRef, type => some type
  | .method, found => found.map Method.owner
  | .interfaceMethod, found => found.map Method.owner
  | .field, found => found.map fun slot => slot.field.owner
  | .string, _ | .nameAndType, _ | .utf8, _ | .int, _ | .float, _ | .long, _ | .double, _ => none

/-- The pool that has been attached to a class. -/
def Class.pool? (type : Class) : Option ResolvedPool := type.declared?.bind DeclaredClass.pool

theorem Class.pool?_of_declared {type : Class} {file : ClassFile}
    (kind : type.kind = .declared { file }) : type.pool? = none := by
  rw [pool?, declared?_eq_some.2 kind]
  rfl

theorem Class.pool?_of_isArray {type : Class} (isArray : type.isArray) : type.pool? = none := by
  have none : type.declared? = none := by simpa [Class.isArray] using isArray
  rw [Class.pool?, none]
  rfl

/-- The class is an array class that needs no initialization, or a declared class that has been
linked, with the pool attached. -/
def Class.IsComplete (type : Class) : Prop :=
  type.isArray ∧ type.state = .fullyInitialized ∨
    ¬ type.isArray ∧ type.state ≠ .allocated ∧ type.linkage?.isSome ∧ type.pool?.isSome

namespace World

variable {world later : World} {id other : ClassId} {linkage : Linkage}

/-- A class refers to its supertypes, to all interfaces that it knows by name, to the component of
an array class, to the classes that declare what its tables hold, to what its constants were
resolved to, and through its mirror to the class for which that stands. -/
inductive Refers (world : World) (id : ClassId) : ClassId → Prop where
  | supertype {other : ClassId} (above : other ∈ (world.type id).supertypes) : Refers world id other
  | interface {name : String} {other : ClassId}
      (known : (world.type id).interface? name = some other) : Refers world id other
  | component {other : ClassId} (below : (world.type id).component? = some other) :
      Refers world id other
  | method {method : Method} (holds : (world.type id).methods.Holds method) :
      Refers world id method.owner
  | field {field : Field} (holds : (world.type id).fields.Holds field) : Refers world id field.owner
  | constant {pool : ResolvedPool} {kind : ConstantKind} {index : UInt16} {result : kind.Meaning}
      {other : ClassId} (attached : (world.type id).pool? = some pool)
      (resolved : pool.find? kind index = some result) (target : kind.target? result = some other) :
      Refers world id other
  | mirror {mirror : ObjectId} {other : ClassId} (has : (world.type id).mirror = some mirror)
      (mirrored : (world.object mirror).mirrored? = some other) : Refers world id other

/-- A directory leads to the class, a loader has given it as an answer, or a published class refers
to it. -/
inductive Published (world : World) : ClassId → Prop where
  | entered {loader : LoaderId} {name : String} {id : ClassId}
      (entry : world.findLoaded loader name = some id) : Published world id
  | returned {answer : LoaderAnswer} {id : ClassId} (given : answer ∈ world.answers)
      (found : answer.outcome = .ok (some id)) : Published world id
  | referred {id other : ClassId} (published : Published world id)
      (refers : world.Refers id other) : Published world other

/-! ### Owners -/

/-- Only linked classes declare methods. -/
theorem linked_of_declared {key : String} {method : Method}
    (found : (world.type id).methods.declared.find? key = some method) :
    (world.type id).linkage?.isSome := by
  rw [Class.methods] at found
  cases linked : (world.type id).linkage? with
  | some linkage => rfl
  | none =>
      rw [linked] at found
      cases found

/-- Only linked classes have places for fields. -/
theorem linked_of_holds {field : Field} (holds : (world.type id).fields.Holds field) :
    (world.type id).linkage?.isSome := by
  rw [Class.fields] at holds
  cases linked : (world.type id).linkage? with
  | some linkage => rfl
  | none =>
      rw [linked] at holds
      cases holds with
      | slot membership => cases membership
      | static found => cases found

section Owners

variable (sound : world.Sound)
include sound

/-- What a class declares belongs to it. -/
theorem Sound.owner_of_declared (linked : (world.type id).linkage?.isSome) {key : String}
    {method : Method} (found : (world.type id).methods.declared.find? key = some method) :
    method.owner = id := by
  obtain ⟨linkage, linked⟩ := Option.isSome_iff_exists.1 linked
  exact ((sound.find?_declared linked key method).1 found).2.owner

/-- Dispatch leads to methods of linked classes. -/
theorem Sound.linked_of_virtual (linked : (world.type id).linkage?.isSome) {key : String}
    {method : Method} (found : (world.type id).methods.virtual.find? key = some method) :
    (world.type method.owner).linkage?.isSome := by
  induction height : world.linkedHeight id using Nat.strongRecOn generalizing id with
  | ind height inductionHypothesis =>
      obtain ⟨linkage, linkedTo⟩ := Option.isSome_iff_exists.1 linked
      have above {supertype : ClassId} (membership : supertype ∈ linkage.supertypes)
          (found : (world.type supertype).methods.virtual.find? key = some method) :
          (world.type method.owner).linkage?.isSome := by
        refine inductionHypothesis _ (height ▸ sound.linkedHeight_lt linkedTo membership) ?_ found
          rfl
        exact Option.isSome_iff_exists.2 (sound.supertype_linked linkedTo membership)
      rw [sound.find?_virtual linkedTo, Option.or_eq_some_iff, Option.or_eq_some_iff] at found
      rcases found with own | ⟨_, inherited | ⟨_, declared⟩⟩
      · rw [sound.owner_of_declared linked (Option.filter_eq_some_iff.1 own).1]
        exact linked
      · cases superclass : linkage.superclass with
        | none =>
            rw [superclass] at inherited
            cases inherited
        | some id =>
            rw [superclass] at inherited
            exact above (mem_supertypes_of_superclass superclass) inherited
      · obtain ⟨interface, membership, found⟩ := List.exists_of_findSome?_eq_some declared
        exact above (mem_supertypes_of_interface membership) found

/-- The methods of a linked class belong to linked classes. -/
theorem Sound.linked_of_method {method : Method} (holds : (world.type id).methods.Holds method) :
    (world.type method.owner).linkage?.isSome := by
  have linked : (world.type id).linkage?.isSome := by
    rw [Class.methods] at holds
    cases linked : (world.type id).linkage? with
    | some linkage => rfl
    | none =>
        rw [linked] at holds
        cases holds with
        | declared found | virtual found | nonvirtual found | static found => cases found
  obtain ⟨linkage, linkedTo⟩ := Option.isSome_iff_exists.1 linked
  obtain ⟨_, _, fits⟩ := sound.fits linkedTo
  have own {key : String} (found : (world.type id).methods.declared.find? key = some method) :
      (world.type method.owner).linkage?.isSome := by
    rw [sound.owner_of_declared linked found]
    exact linked
  have sorts := MethodTables.sorts_build fits.methods
  rw [← methods_of_linkage linkedTo] at sorts
  cases holds with
  | declared found => exact own found
  | virtual found => exact sound.linked_of_virtual linked found
  | nonvirtual found =>
      rw [sorts.nonvirtual] at found
      exact own (Option.filter_eq_some_iff.1 found).1
  | static found =>
      rw [sorts.static] at found
      exact own (Option.filter_eq_some_iff.1 found).1

/-- The slots of a linked class belong to linked classes. -/
theorem Sound.linked_of_slot (linked : (world.type id).linkage?.isSome) {slot : FieldSlot}
    (membership : slot ∈ (world.type id).fields.slots) :
    (world.type slot.field.owner).linkage?.isSome := by
  induction height : world.linkedHeight id using Nat.strongRecOn generalizing id slot with
  | ind height inductionHypothesis =>
      obtain ⟨linkage, linkedTo⟩ := Option.isSome_iff_exists.1 linked
      have above {supertype : ClassId} (isSupertype : supertype ∈ linkage.supertypes)
          {slot : FieldSlot} (membership : slot ∈ (world.type supertype).fields.slots) :
          (world.type slot.field.owner).linkage?.isSome := by
        refine inductionHypothesis _ (height ▸ sound.linkedHeight_lt linkedTo isSupertype) ?_
          membership rfl
        exact Option.isSome_iff_exists.2 (sound.supertype_linked linkedTo isSupertype)
      obtain ⟨_, _, fits⟩ := sound.fits linkedTo
      rw [Class.fields, linkedTo] at membership
      rcases (FieldLayout.owner_addAll fits.fields).1 slot membership with inherited | own
      · rcases FieldLayout.mem_inherit inherited with fromSuperclass | ⟨slots, isInterface, among⟩
        · cases superclass : linkage.superclass with
          | none =>
              rw [superclass] at fromSuperclass
              cases fromSuperclass
          | some id =>
              rw [superclass] at fromSuperclass
              exact above (mem_supertypes_of_superclass superclass) fromSuperclass
        · obtain ⟨interface, declared, rfl⟩ := List.mem_map.1 isInterface
          obtain ⟨same, membership, sameField⟩ := List.mem_map.1 among
          rw [← sameField]
          exact above (mem_supertypes_of_interface declared) membership
      · rw [own]
        exact linked

/-- The fields of a linked class belong to linked classes. -/
theorem Sound.linked_of_field {field : Field} (holds : (world.type id).fields.Holds field) :
    (world.type field.owner).linkage?.isSome := by
  have linked := linked_of_holds holds
  obtain ⟨linkage, linkedTo⟩ := Option.isSome_iff_exists.1 linked
  obtain ⟨_, _, fits⟩ := sound.fits linkedTo
  cases holds with
  | slot membership same => exact same ▸ sound.linked_of_slot linked membership
  | static found same =>
      rw [Class.fields, linkedTo] at found
      rcases (FieldLayout.owner_addAll fits.fields).2 _ _ found with before | own
      · cases before
      · rw [← same, own]
        exact linked

end Owners

/-! ### What lookups give -/

/-- What a lookup may give: a class that may be handed out, or a method or a field that a class
declares. -/
def Offers (world : World) : (kind : ConstantKind) → kind.Meaning → Prop
  | .classRef, type => (world.type type).isUsable
  | .method, found | .interfaceMethod, found => ∀ method, found = some method →
      ∃ id key, (world.type id).methods.declared.find? key = some method
  | .field, found => ∀ slot, found = some slot →
      ∃ id name descriptor, (world.type id).declaredField? name descriptor = some slot
  | .string, _ | .nameAndType, _ | .utf8, _ | .int, _ | .float, _ | .long, _ | .double, _ => True

/-- A field that a class declares has a place in its layout. -/
theorem holds_of_declaredField? {name descriptor : String} {slot : FieldSlot}
    (found : (world.type id).declaredField? name descriptor = some slot) :
    (world.type id).fields.Holds slot.field := by
  rcases Option.or_eq_some_iff.1 found with instanceField | ⟨_, static⟩
  · exact .slot (List.mem_of_find?_eq_some instanceField) rfl
  · exact .static static rfl

theorem KeepsUsable.declaredField?_eq (keeps : world.KeepsUsable later)
    (linked : (world.type id).linkage?.isSome) (name descriptor : String) :
    (later.type id).declaredField? name descriptor =
      (world.type id).declaredField? name descriptor := by
  have names := congrArg Class.name (keeps id (Class.isUsable_of_linkage? linked))
  simp only [Class.lasting_name] at names
  simp only [Class.declaredField?, Class.instanceField?, Class.staticField?,
    keeps.fields_eq linked, names]

theorem Offers.mono {kind : ConstantKind} {result : kind.Meaning}
    (offers : world.Offers kind result) (keeps : world.KeepsUsable later) :
    later.Offers kind result := by
  cases kind with
  | classRef => exact keeps.isUsable offers
  | method | interfaceMethod =>
      intro method found
      obtain ⟨id, key, declares⟩ := offers method found
      exact ⟨id, key, by rw [keeps.methods_eq (linked_of_declared declares), declares]⟩
  | field =>
      intro slot found
      obtain ⟨id, name, descriptor, declares⟩ := offers slot found
      have linked := linked_of_holds (holds_of_declaredField? declares)
      exact ⟨id, name, descriptor, by rw [keeps.declaredField?_eq linked, declares]⟩
  | string | nameAndType | utf8 | int | float | long | double => trivial

/-- A lookup refers to usable classes only. -/
theorem Offers.isUsable {kind : ConstantKind} {result : kind.Meaning}
    (offers : world.Offers kind result) (sound : world.Sound) {target : ClassId}
    (same : kind.target? result = some target) : (world.type target).isUsable := by
  cases kind with
  | classRef =>
      cases same
      exact offers
  | method | interfaceMethod =>
      obtain ⟨method, found, rfl⟩ := Option.map_eq_some_iff.1 same
      obtain ⟨id, key, declares⟩ := offers method found
      exact Class.isUsable_of_linkage? (sound.linked_of_method (.declared declares))
  | field =>
      obtain ⟨slot, found, rfl⟩ := Option.map_eq_some_iff.1 same
      obtain ⟨id, name, descriptor, declares⟩ := offers slot found
      exact Class.isUsable_of_linkage? (sound.linked_of_field (holds_of_declaredField? declares))
  | string | nameAndType | utf8 | int | float | long | double => cases same

/-- What lookups in the file of a class have to do with what is written there: texts are those of the
file, and classes have the names that stand in it as far as these are names of classes. -/
def Reads (world : World) (file : ClassFile) :
    (kind : ConstantKind) → UInt16 → kind.Meaning → Prop
  | .utf8, index, text => file.text? index = some text
  | .classRef, index, type => (world.type type).isUsable ∧ ∃ name,
      file.className? index = some name ∧
        ((world.type type).name = name ↔ FieldType.IsClassName name)
  | .string, _, _ | .method, _, _ | .interfaceMethod, _, _ | .field, _, _ | .nameAndType, _, _
  | .int, _, _ | .float, _, _ | .long, _, _ | .double, _, _ => True

theorem Reads.mono {file : ClassFile} {kind : ConstantKind} {index : UInt16}
    {result : kind.Meaning} (reads : world.Reads file kind index result)
    (keeps : world.KeepsUsable later) : later.Reads file kind index result := by
  cases kind with
  | utf8 => exact reads
  | classRef =>
      obtain ⟨usable, name, written, same⟩ := reads
      exact ⟨keeps.isUsable usable, name, written, by rw [keeps.name_eq usable, same]⟩
  | string | method | interfaceMethod | field | nameAndType | int | float | long | double => trivial

/-! ### Vetted classes -/

/-- A class of which nothing gets out before it is linked: the pool is attached together with the
linkage, array classes need no initialization, inherit from linked classes and have one dimension
more than their components, what is not usable waits to be linked or has failed, everything else to
which the class refers is usable, and its constants stand for what lookups may give and for what its
file says. -/
structure Vets (world : World) (id : ClassId) (type : Class) : Prop where
  pool : ¬ type.isArray → (type.pool?.isSome ↔ type.linkage?.isSome)
  array : type.isArray → type.state = .fullyInitialized
  unusable : ¬ type.isUsable → type.state = .allocated ∨ type.state = .initializationError
  supertypes : type.isArray → ∀ supertype ∈ type.supertypes,
    (world.type supertype).linkage?.isSome
  component : ∀ component, type.component? = some component → (world.type component).isUsable
  dimension : ∀ component, type.component? = some component →
    type.dimension = (world.type component).dimension + 1
  constants : ∀ pool, type.pool? = some pool → ∀ kind index result,
    pool.find? kind index = some result → world.Offers kind result
  reads : ∀ file, type.file? = some file → ∀ pool, type.pool? = some pool →
    ∀ kind index result, pool.find? kind index = some result → world.Reads file kind index result
  mirror : ∀ mirror, type.mirror = some mirror →
    (world.object mirror).lasting.2 = some (.mirror id)

/-- All classes are vetted, and loaders have answered with usable classes only. -/
structure Vetted (world : World) : Prop where
  classes : ∀ id, world.Vets id (world.type id)
  answers : ∀ answer ∈ world.answers, ∀ id, answer.outcome = .ok (some id) →
    (world.type id).isUsable

theorem mirrored?_eq_of_lasting {object : Object} {target : ClassId}
    (mirror : object.lasting.2 = some (.mirror target)) : object.mirrored? = some target := by
  unfold Object.lasting at mirror
  split at mirror
  next fields attachment body =>
    cases mirror
    simp [Object.mirrored?, body]
  next => cases mirror

section Kept

variable {type : Class} (keeps : world.KeepsUsable later) (objects : world.KeepsObjects later)
include keeps objects

theorem Vets.mono (vets : world.Vets id type) : later.Vets id type where
  pool := vets.pool
  array := vets.array
  unusable := vets.unusable
  supertypes isArray supertype above := by
    have linked := vets.supertypes isArray supertype above
    rwa [keeps.linkage?_eq linked]
  component component below := keeps.isUsable (vets.component component below)
  dimension component below := by
    rw [keeps.dimension_eq (vets.component component below)]
    exact vets.dimension component below
  constants pool attached kind index result resolved :=
    (vets.constants pool attached kind index result resolved).mono keeps
  reads file declared pool attached kind index result resolved :=
    (vets.reads file declared pool attached kind index result resolved).mono keeps
  mirror mirror has := by
    have mirrors := vets.mirror mirror has
    rw [objects.lasting mirror (present_of_lasting mirrors nofun), mirrors]

/-- It is enough to vet the classes that have changed. -/
theorem Vetted.of_changes (vetted : world.Vetted)
    (classes : ∀ id, later.type id = world.type id ∨ later.Vets id (later.type id))
    (answers : later.answers = world.answers) : later.Vetted where
  classes id := by
    rcases classes id with same | vets
    · rw [same]
      exact (vetted.classes id).mono keeps objects
    · exact vets
  answers answer given id found := keeps.isUsable (vetted.answers answer (answers ▸ given) id found)

end Kept

theorem Vetted.of_classes (vetted : world.Vetted) (classes : later.classes = world.classes)
    (objects : world.KeepsObjects later) (answers : later.answers = world.answers) :
    later.Vetted := by
  have same (id : ClassId) : later.type id = world.type id := by rw [type, classes, type]
  exact vetted.of_changes (fun id _ => by rw [same]) objects (fun id => .inl (same id)) answers

/-- The same class in another state. -/
theorem Vets.withState {type : Class} (vets : world.Vets id type) {state : ClassState}
    (array : type.isArray → state = .fullyInitialized)
    (unusable : ¬ type.isUsable → state = .allocated ∨ state = .initializationError) :
    world.Vets id { type with state } where
  pool := vets.pool
  array := array
  unusable := unusable
  supertypes := vets.supertypes
  component := vets.component
  dimension := vets.dimension
  constants := vets.constants
  reads := vets.reads
  mirror := vets.mirror

/-- The same class with a mirror that stands for it, unless it has one. -/
theorem Vets.withMirror {type : Class} (vets : world.Vets id type) {mirror : ObjectId}
    (mirrors : (world.object mirror).lasting.2 = some (.mirror id)) :
    world.Vets id { type with mirror := type.mirror.or (some mirror) } where
  pool := vets.pool
  array := vets.array
  unusable := vets.unusable
  supertypes := vets.supertypes
  component := vets.component
  dimension := vets.dimension
  constants := vets.constants
  reads := vets.reads
  mirror other has := by
    rcases Option.or_eq_some_iff.1 has with before | ⟨_, new⟩
    · exact vets.mirror other before
    · cases new
      exact mirrors

/-- A class that a file declares comes in without anything to vet. -/
theorem vets_allocated {type : Class} {file : ClassFile} (kind : type.kind = .declared { file })
    (state : type.state = .allocated) (mirror : type.mirror = none) : world.Vets id type where
  pool _ := by simp [Class.pool?_of_declared kind, Class.linkage?_of_declared kind]
  array isArray := by simp [Class.isArray, Class.declared?, kind] at isArray
  unusable _ := .inl state
  supertypes isArray := by simp [Class.isArray, Class.declared?, kind] at isArray
  component component below := by simp [Class.component?, kind] at below
  dimension component below := by simp [Class.component?, kind] at below
  constants pool attached := by simp [Class.pool?_of_declared kind] at attached
  reads _ _ pool attached := by simp [Class.pool?_of_declared kind] at attached
  mirror := by simp [mirror]

/-- Static values do not matter. -/
theorem Vets.withStatic {type : Class} {body : DeclaredClass} (vets : world.Vets id type)
    (declared : type.kind = .declared body) (static : Array Value) :
    world.Vets id { type with kind := .declared { body with static } } where
  pool _ := by
    have linked := vets.pool (by simp [Class.isArray, Class.declared?, declared])
    simpa [Class.pool?, Class.linkage?, Class.declared?, declared] using linked
  array isArray := by cases isArray
  unusable unusable := vets.unusable fun usableBefore => unusable (by
    simpa [Class.isUsable, Class.isArray, Class.linkage?, Class.declared?, declared] using
      usableBefore)
  supertypes isArray := by cases isArray
  component component below := by cases below
  dimension component below := by cases below
  constants pool attached := vets.constants pool (by
    simpa [Class.pool?, Class.declared?, declared] using attached)
  reads file isFile pool attached := vets.reads file
    (by simpa [Class.file?, Class.declared?, declared] using isFile) pool (by
    simpa [Class.pool?, Class.declared?, declared] using attached)
  mirror := vets.mirror

/-- The pool comes to remember something else, which may be given and agrees with the file too. -/
theorem Vets.changePool {type : Class} {body : DeclaredClass} (vets : world.Vets id type)
    (declared : type.kind = .declared body) {change : ResolvedPool → ResolvedPool}
    (fine : ∀ pool, body.pool = some pool → ∀ kind index result,
      (change pool).find? kind index = some result →
        world.Offers kind result ∧ world.Reads body.file kind index result) :
    world.Vets id { type with kind := .declared { body with pool := body.pool.map change } } where
  pool _ := by
    have linked := vets.pool (by simp [Class.isArray, Class.declared?, declared])
    simpa [Class.pool?, Class.linkage?, Class.declared?, declared] using linked
  array isArray := by cases isArray
  unusable unusable := vets.unusable fun usableBefore => unusable (by
    simpa [Class.isUsable, Class.isArray, Class.linkage?, Class.declared?, declared] using
      usableBefore)
  supertypes isArray := by cases isArray
  component component below := by cases below
  dimension component below := by cases below
  constants pool attached kind index result resolved := by
    obtain ⟨before, attachedBefore, rfl⟩ := Option.map_eq_some_iff.1 attached
    exact (fine before attachedBefore kind index result resolved).1
  reads file isFile pool attached kind index result resolved := by
    cases isFile
    obtain ⟨before, attachedBefore, rfl⟩ := Option.map_eq_some_iff.1 attached
    exact (fine before attachedBefore kind index result resolved).2
  mirror := vets.mirror

/-- An array class comes in above linked supertypes and a usable component. -/
theorem vets_array {type : Class} (isArray : type.isArray) (state : type.state = .fullyInitialized)
    (mirror : type.mirror = none)
    (supertypes : ∀ supertype ∈ type.supertypes, (world.type supertype).linkage?.isSome)
    (component : ∀ component, type.component? = some component →
      (world.type component).isUsable)
    (dimension : ∀ component, type.component? = some component →
      type.dimension = (world.type component).dimension + 1) : world.Vets id type where
  pool declared := absurd isArray declared
  array _ := state
  unusable unusable := absurd (Class.isUsable_of_isArray isArray) unusable
  supertypes _ := supertypes
  component := component
  dimension := dimension
  constants pool attached := by
    rw [Class.pool?_of_isArray isArray] at attached
    cases attached
  reads _ _ pool attached := by
    rw [Class.pool?_of_isArray isArray] at attached
    cases attached
  mirror := by simp [mirror]

/-- A class has been linked. -/
theorem Vets.attached {type : Class} {body : DeclaredClass} (vets : world.Vets id type)
    (linkage : Linkage) (static : Array Value) : world.Vets id { type with
      state := .linked
      kind := .declared { body with linkage := some linkage, pool := some {}, static } } where
  pool _ := by simp [Class.pool?, Class.linkage?, Class.declared?]
  array isArray := by cases isArray
  unusable unusable := absurd (Class.isUsable_of_linkage? rfl) unusable
  supertypes isArray := by cases isArray
  component component below := by cases below
  dimension component below := by cases below
  constants pool attached kind index result resolved := by
    cases attached
    cases kind <;> cases resolved
  reads _ _ pool attached kind index result resolved := by
    cases attached
    cases kind <;> cases resolved
  mirror := vets.mirror

/-! ### What is published is usable -/

theorem Vetted.isUsable_of_refers (vetted : world.Vetted) (sound : world.Sound)
    (usable : (world.type id).isUsable) (refers : world.Refers id other) :
    (world.type other).isUsable := by
  cases refers with
  | supertype above =>
      by_cases isArray : (world.type id).isArray
      · exact Class.isUsable_of_linkage? ((vetted.classes id).supertypes isArray other above)
      · obtain ⟨linkage, linked⟩ : ∃ linkage, (world.type id).linkage? = some linkage := by
          simpa [Class.isUsable, isArray, Option.isSome_iff_exists] using usable
        rw [supertypes_of_linkage linked] at above
        obtain ⟨own, linkedTo⟩ := sound.supertype_linked linked above
        exact Class.isUsable_of_linkage? (Option.isSome_of_eq_some linkedTo)
  | interface known =>
      obtain ⟨linkage, linked, _⟩ := Option.bind_eq_some_iff.1 known
      have reaches := sound.reaches_of_interface? known
      obtain ⟨own, linkedTo⟩ := sound.reaches_linked ⟨linkage, linked⟩ reaches
      exact Class.isUsable_of_linkage? (Option.isSome_of_eq_some linkedTo)
  | component below => exact (vetted.classes id).component other below
  | method holds => exact Class.isUsable_of_linkage? (sound.linked_of_method holds)
  | field holds => exact Class.isUsable_of_linkage? (sound.linked_of_field holds)
  | constant attached resolved target =>
      exact ((vetted.classes id).constants _ attached _ _ _ resolved).isUsable sound target
  | mirror has mirrored =>
      rw [mirrored?_eq_of_lasting ((vetted.classes id).mirror _ has)] at mirrored
      cases mirrored
      exact usable

/-- Nothing is published but what may be handed out. -/
theorem Vetted.isUsable_of_published (vetted : world.Vetted) (sound : world.Sound)
    (published : world.Published id) : (world.type id).isUsable := by
  induction published with
  | entered entry => exact sound.directories _ _ _ entry
  | returned given found => exact vetted.answers _ given _ found
  | referred _ refers inductionHypothesis =>
      exact vetted.isUsable_of_refers sound inductionHypothesis refers

/-- Between two pieces of work what may be handed out is complete. -/
theorem Vets.isComplete {type : Class} (vets : world.Vets id type) (usable : type.isUsable)
    (linked : type.state ≠ .allocated) : type.IsComplete := by
  by_cases isArray : type.isArray
  · exact .inl ⟨isArray, vets.array isArray⟩
  · have linkage : type.linkage?.isSome := by
      simpa [Class.isUsable, isArray] using usable
    exact .inr ⟨isArray, linked, linkage, (vets.pool isArray).2 linkage⟩

end World
end JavaMachine
