import JavaMachine.Hierarchy

/-!
# How worlds grow

Work in a world adds classes to it and leaves those that are there as they were: mirrors, resolved
constants and static values apart, a class lasts. Only initializations move states, and only
linking attaches what it computes; both are left out here. Objects are added as well, and keep
their classes and what they carry.
-/

namespace JavaMachine

/-- The kind without what changes while the class is in use: resolved constants and static
values. -/
def ClassKind.lasting : ClassKind → ClassKind
  | declared body => declared { body with pool := none, static := #[] }
  | primitiveArray element supertypes => primitiveArray element supertypes
  | referenceArray component dimension supertypes => referenceArray component dimension supertypes

namespace Class

/-- The file of a declared class. -/
def file? (type : Class) : Option ClassFile := type.declared?.map DeclaredClass.file

/-- The values of the static fields of a class, if it is a declared one. -/
def static (type : Class) : Array Value :=
  (type.declared?.map DeclaredClass.static).getD #[]

theorem declared?_eq_some {type : Class} {body : DeclaredClass} :
    type.declared? = some body ↔ type.kind = .declared body := by
  unfold declared?
  cases type.kind with
  | declared other => simp
  | primitiveArray element supertypes => simp
  | referenceArray component dimension supertypes => simp

theorem isArray_of_primitive {type : Class} {element : Primitive}
    {supertypes : ArraySupertypes} (kind : type.kind = .primitiveArray element supertypes) :
    type.isArray := by
  simp [isArray, declared?, kind]

theorem isArray_of_reference {type : Class} {component : ClassId} {dimension : Nat}
    {supertypes : ArraySupertypes}
    (kind : type.kind = .referenceArray component dimension supertypes) : type.isArray := by
  simp [isArray, declared?, kind]

theorem linkage?_of_isArray {type : Class} (isArray : type.isArray) : type.linkage? = none := by
  simp only [Class.isArray, Option.isNone_iff_eq_none] at isArray
  simp [Class.linkage?, isArray]

theorem file?_of_isArray {type : Class} (isArray : type.isArray) : type.file? = none := by
  simp only [Class.isArray, Option.isNone_iff_eq_none] at isArray
  rw [file?, isArray, Option.map_none]

theorem not_isArray_of_linkage? {type : Class} {linkage : Linkage}
    (linked : type.linkage? = some linkage) : ¬ type.isArray := by
  intro isArray
  rw [linkage?_of_isArray isArray] at linked
  cases linked

/-- The class without what changes while it is in use: its state, its mirror, resolved constants
and static values. -/
def lasting (type : Class) : Class :=
  { type with state := .allocated, mirror := none, kind := type.kind.lasting }

@[simp] theorem lasting_name (type : Class) : type.lasting.name = type.name := rfl

@[simp] theorem lasting_flags (type : Class) : type.lasting.flags = type.flags := rfl

@[simp] theorem lasting_loader (type : Class) : type.lasting.loader = type.loader := rfl

@[simp] theorem lasting_linkage? (type : Class) : type.lasting.linkage? = type.linkage? := by
  obtain ⟨_, _, _, _, _, kind⟩ := type
  cases kind <;> rfl

@[simp] theorem lasting_file? (type : Class) : type.lasting.file? = type.file? := by
  obtain ⟨_, _, _, _, _, kind⟩ := type
  cases kind <;> rfl

@[simp] theorem lasting_isArray (type : Class) : type.lasting.isArray = type.isArray := by
  obtain ⟨_, _, _, _, _, kind⟩ := type
  cases kind <;> rfl

@[simp] theorem lasting_dimension (type : Class) : type.lasting.dimension = type.dimension := by
  obtain ⟨_, _, _, _, _, kind⟩ := type
  cases kind <;> rfl

@[simp] theorem lasting_superclass? (type : Class) :
    type.lasting.superclass? = type.superclass? := by
  obtain ⟨_, _, _, _, _, kind⟩ := type
  cases kind <;> rfl

@[simp] theorem lasting_component? (type : Class) :
    type.lasting.component? = type.component? := by
  obtain ⟨_, _, _, _, _, kind⟩ := type
  cases kind <;> rfl

@[simp] theorem lasting_interfaces (type : Class) :
    type.lasting.interfaces = type.interfaces := by
  obtain ⟨_, _, _, _, _, kind⟩ := type
  cases kind <;> rfl

@[simp] theorem lasting_isUsable (type : Class) : type.lasting.isUsable = type.isUsable := by
  simp [isUsable]

/-- All of the kind of an array class lasts. -/
theorem lasting_kind_of_isArray {type : Class} (isArray : type.isArray) :
    type.lasting.kind = type.kind := by
  obtain ⟨_, _, _, _, _, kind⟩ := type
  cases kind with
  | declared body => cases isArray
  | primitiveArray element supertypes => rfl
  | referenceArray component dimension supertypes => rfl

theorem kind_of_lasting {type other : Class} (same : other.lasting = type.lasting)
    (isArray : type.isArray) : other.kind = type.kind := by
  have isArrayToo : other.isArray := by
    rw [← lasting_isArray, same, lasting_isArray, isArray]
  rw [← lasting_kind_of_isArray isArrayToo, same, lasting_kind_of_isArray isArray]

theorem declared_of_lasting {type other : Class} {body : DeclaredClass}
    (same : other.lasting = type.lasting) (kind : type.kind = .declared body) :
    ∃ own, other.kind = .declared own ∧ own.file = body.file ∧ own.linkage = body.linkage := by
  have kinds : other.kind.lasting = type.kind.lasting := congrArg Class.kind same
  rw [kind] at kinds
  cases found : other.kind with
  | declared own =>
      rw [found] at kinds
      simp only [ClassKind.lasting, ClassKind.declared.injEq, DeclaredClass.mk.injEq] at kinds
      exact ⟨own, rfl, kinds.1, kinds.2.1⟩
  | primitiveArray element supertypes =>
      rw [found] at kinds
      cases kinds
  | referenceArray component dimension supertypes =>
      rw [found] at kinds
      cases kinds

/-- A class as it comes into a world: a linked one, one whose linking failed, or an array class. -/
inductive IsFresh (type : Class) : Prop where
  | linked (state : type.state = .linked) (linkage : type.linkage?.isSome)
  | failed (state : type.state = .initializationError)
  | array (state : type.state = .fullyInitialized) (isArray : type.isArray)

theorem IsFresh.not_allocated {type : Class} (fresh : type.IsFresh) : type.state ≠ .allocated := by
  cases fresh with
  | linked state _ | failed state | array state _ => simp [state]

theorem IsFresh.not_beingInitialized {type : Class} (fresh : type.IsFresh) :
    type.state ≠ .beingInitialized := by
  cases fresh with
  | linked state _ | failed state | array state _ => simp [state]

theorem IsFresh.of_same {type other : Class} (fresh : type.IsFresh)
    (lasting : other.lasting = type.lasting) (state : other.state = type.state) :
    other.IsFresh := by
  have linkage := congrArg Class.linkage? lasting
  have isArray := congrArg Class.isArray lasting
  simp only [lasting_linkage?, lasting_isArray] at linkage isArray
  cases fresh with
  | linked linked linkedTo => exact .linked (state.trans linked) (linkage ▸ linkedTo)
  | failed failed => exact .failed (state.trans failed)
  | array initialized array => exact .array (state.trans initialized) (isArray.trans array)

end Class

/-- What lasts of an object: its class, and what it carries besides its fields. -/
def Object.lasting (object : Object) : ClassId × Option Attachment :=
  match object.body with
  | .record _ attachment => (object.type, some attachment)
  | _ => (object.type, none)

namespace World

variable {world middle later : World} {id other : ClassId}

/-! ### The classes after a change -/

/-- No class has the identity. -/
theorem type_eq_default (absent : world.classes.size ≤ id.index) : world.type id = default := by
  simp [type, absent]

theorem type_eq_of_getElem? {type : Class} (found : world.classes[id.index]? = some type) :
    world.type id = type := by
  simp [World.type, Array.getD_eq_getD_getElem?, found]

theorem type_modifyType (world : World) (id other : ClassId) (change : Class → Class) :
    (world.modifyType id change).type other =
      if id = other ∧ other.index < world.classes.size then change (world.type other)
      else world.type other := by
  obtain ⟨index⟩ := id
  obtain ⟨otherIndex⟩ := other
  simp only [type, modifyType, Array.getD_eq_getD_getElem?, Array.getElem?_modify, ClassId.mk.injEq]
  by_cases same : index = otherIndex
  · subst same
    by_cases present : index < world.classes.size <;> simp [present]
  · simp [same]

theorem type_modifyType_other (world : World) (change : Class → Class) (distinct : id ≠ other) :
    (world.modifyType id change).type other = world.type other := by
  rw [type_modifyType, if_neg fun both => distinct both.1]

theorem type_modifyType_same (change : Class → Class) (present : id.index < world.classes.size) :
    (world.modifyType id change).type id = change (world.type id) := by
  rw [type_modifyType, if_pos ⟨rfl, present⟩]

@[simp] theorem size_modifyType (world : World) (id : ClassId) (change : Class → Class) :
    (world.modifyType id change).classes.size = world.classes.size := by
  simp [modifyType]

/-- The identity that the next class gets. -/
def nextId (world : World) : ClassId := ⟨world.classes.size⟩

theorem type_addType (world : World) (type : Class) (other : ClassId) :
    (world.addType type).2.type other =
      if other.index = world.classes.size then type else world.type other := by
  simp only [World.type, addType, Array.getD_eq_getD_getElem?, Array.getElem?_push]
  by_cases new : other.index = world.classes.size <;> simp [new]

@[simp] theorem type_nextId_addType (world : World) (type : Class) :
    (world.addType type).2.type world.nextId = type := by
  simp [type_addType, nextId]

@[simp] theorem size_addType (world : World) (type : Class) :
    (world.addType type).2.classes.size = world.classes.size + 1 := by
  simp [addType]

/-! ### The objects after a change -/

theorem object_addObject (world : World) (object : Object) (id : ObjectId) :
    (world.addObject object).2.object id =
      if id.index = world.objects.size then object else world.object id := by
  simp only [World.object, addObject, Array.getD_eq_getD_getElem?, Array.getElem?_push]
  split <;> rfl

theorem object_added (world : World) (object : Object) :
    (world.addObject object).2.object (world.addObject object).1 = object := by
  rw [object_addObject, if_pos (by simp [addObject])]

theorem object_setObject (world : World) (id other : ObjectId) (object : Object) :
    (world.setObject id object).object other =
      if id = other ∧ other.index < world.objects.size then object else world.object other := by
  obtain ⟨index⟩ := id
  obtain ⟨otherIndex⟩ := other
  simp only [World.object, setObject, Array.getD_eq_getD_getElem?, Array.getElem?_setIfInBounds,
    ObjectId.mk.injEq]
  by_cases same : index = otherIndex
  · subst same
    by_cases present : index < world.objects.size <;> simp [present]
  · simp [same]

/-- An object that carries something is there. -/
theorem present_of_lasting {object : ObjectId} {carried : Attachment}
    (carries : (world.object object).lasting.2 = some carried) (something : carried ≠ .none) :
    object.index < world.objects.size := by
  apply Nat.lt_of_not_ge
  intro absent
  rw [World.object, Array.getD_eq_getD_getElem?, Array.getElem?_eq_none absent] at carries
  exact something (Option.some_inj.1 carries).symm

/-- Objects stay there, of their classes and with what they carry. -/
structure KeepsObjects (world later : World) : Prop where
  size : world.objects.size ≤ later.objects.size
  lasting : ∀ id, id.index < world.objects.size →
    (later.object id).lasting = (world.object id).lasting

namespace KeepsObjects

theorem of_eq (objects : later.objects = world.objects) : world.KeepsObjects later where
  size := Nat.le_of_eq (congrArg Array.size objects.symm)
  lasting id _ := by rw [World.object, objects, World.object]

theorem trans (first : world.KeepsObjects middle) (second : middle.KeepsObjects later) :
    world.KeepsObjects later where
  size := Nat.le_trans first.size second.size
  lasting id present :=
    (second.lasting id (Nat.lt_of_lt_of_le present first.size)).trans (first.lasting id present)

theorem addObject (world : World) (object : Object) :
    world.KeepsObjects (world.addObject object).2 where
  size := by simp [World.addObject]
  lasting id present := by rw [object_addObject, if_neg (Nat.ne_of_lt present)]

theorem setObject {id : ObjectId} {object : Object}
    (same : id.index < world.objects.size → object.lasting = (world.object id).lasting) :
    world.KeepsObjects (world.setObject id object) where
  size := by simp [World.setObject]
  lasting other present := by
    rw [object_setObject]
    split
    next here =>
      rw [← here.1]
      exact same (here.1 ▸ present)
    next => rfl

end KeepsObjects

/-! ### Growth -/

/-- The later world has come out of a world by work that neither moves the state of a class that
was there nor takes anything from it. -/
structure Grows (world later : World) : Prop where
  size : world.classes.size ≤ later.classes.size
  lasting : ∀ id, id.index < world.classes.size →
    (later.type id).lasting = (world.type id).lasting
  state : ∀ id, id.index < world.classes.size → (later.type id).state = (world.type id).state
  fresh : ∀ id, world.classes.size ≤ id.index → (later.type id).IsFresh
  journal : later.journal = world.journal
  objects : world.KeepsObjects later

/-- A class that is not there looks like one whose linking failed. -/
theorem isFresh_of_absent (absent : world.classes.size ≤ id.index) : (world.type id).IsFresh := by
  rw [type_eq_default absent]
  exact .failed rfl

namespace Grows

theorem refl (world : World) : world.Grows world where
  size := Nat.le_refl _
  lasting _ _ := rfl
  state _ _ := rfl
  fresh _ absent := isFresh_of_absent absent
  journal := rfl
  objects := .of_eq rfl

theorem trans (first : world.Grows middle) (second : middle.Grows later) : world.Grows later where
  size := Nat.le_trans first.size second.size
  lasting id present :=
    (second.lasting id (Nat.lt_of_lt_of_le present first.size)).trans (first.lasting id present)
  state id present :=
    (second.state id (Nat.lt_of_lt_of_le present first.size)).trans (first.state id present)
  fresh id absent := by
    rcases Nat.lt_or_ge id.index middle.classes.size with present | absentStill
    · exact (first.fresh id absent).of_same (second.lasting id present) (second.state id present)
    · exact second.fresh id absentStill
  journal := second.journal.trans first.journal
  objects := first.objects.trans second.objects

end Grows

/-- An instance has a value for each field of its class, which is linked. -/
def Shaped (world : World) (object : Object) : Prop :=
  ∀ fields attachment, object.body = .record fields attachment →
    ∃ linkage, (world.type object.type).linkage? = some linkage ∧
      fields.size = linkage.fields.slots.length

/-- All objects have the shape that their classes lay down. -/
def ObjectsShaped (world : World) : Prop := ∀ object ∈ world.objects, world.Shaped object

theorem Shaped.of_linkages {object : Object} (shaped : world.Shaped object)
    (linkages : ∀ id linkage, (world.type id).linkage? = some linkage →
      (later.type id).linkage? = some linkage) : later.Shaped object := by
  intro fields attachment body
  obtain ⟨linkage, linked, size⟩ := shaped fields attachment body
  exact ⟨linkage, linkages _ linkage linked, size⟩

/-- The later world has the same classes, at most with other mirrors, resolved constants and static
values, and the same loaders, which have answered nothing; objects stay, and keep their shape. -/
structure Keeps (world later : World) : Prop where
  size : later.classes.size = world.classes.size
  lasting : ∀ id, (later.type id).lasting = (world.type id).lasting
  state : ∀ id, (later.type id).state = (world.type id).state
  loaders : later.loaders = world.loaders
  shapes : world.ObjectsShaped → later.ObjectsShaped
  journal : later.journal = world.journal
  answers : later.answers = world.answers
  objects : world.KeepsObjects later
  strings : later.strings = world.strings

namespace Keeps

theorem grows (keeps : world.Keeps later) : world.Grows later where
  size := Nat.le_of_eq keeps.size.symm
  lasting id _ := keeps.lasting id
  state id _ := keeps.state id
  fresh id absent := (isFresh_of_absent absent).of_same (keeps.lasting id) (keeps.state id)
  journal := keeps.journal
  objects := keeps.objects

theorem shapes_of_classes (classes : later.classes = world.classes)
    (shapes : world.ObjectsShaped → ∀ object ∈ later.objects, world.Shaped object) :
    world.ObjectsShaped → later.ObjectsShaped := by
  intro shaped object membership
  refine (shapes shaped object membership).of_linkages fun id linkage linked => ?_
  rw [type, classes, ← type, linked]

/-- An object of the right shape is added. -/
theorem addObject {object : Object} (shaped : world.Shaped object) :
    world.Keeps (world.addObject object).2 := by
  refine ⟨rfl, fun _ => rfl, fun _ => rfl, rfl, shapes_of_classes rfl fun before other membership =>
    ?_, rfl, rfl, .addObject world object, rfl⟩
  rcases Array.mem_push.1 membership with old | new
  · exact before other old
  · exact new ▸ shaped

/-- Another object of the right shape is put into the place of one. -/
theorem setObject {id : ObjectId} {object : Object}
    (shaped : world.Shaped (world.object id) → world.Shaped object)
    (same : id.index < world.objects.size → object.lasting = (world.object id).lasting) :
    world.Keeps (world.setObject id object) := by
  refine ⟨rfl, fun _ => rfl, fun _ => rfl, rfl, shapes_of_classes rfl fun before other membership =>
    ?_, rfl, rfl, .setObject same, rfl⟩
  by_cases present : id.index < world.objects.size
  · rcases Array.mem_or_eq_of_mem_setIfInBounds membership with old | new
    · exact before other old
    · rw [new]
      apply shaped
      apply before
      rw [World.object, Array.getD_eq_getD_getElem?, Array.getElem?_eq_getElem present]
      exact Array.getElem_mem present
  · rw [World.setObject, Array.setIfInBounds_eq_of_size_le (Nat.le_of_not_lt present)] at membership
    exact before other membership

/-- A change of what does not last in a class. -/
theorem modifyType (world : World) (id : ClassId) {change : Class → Class}
    (lasting : ∀ type, (change type).lasting = type.lasting)
    (state : ∀ type, (change type).state = type.state) :
    world.Keeps (world.modifyType id change) := by
  have lastingType (other : ClassId) :
      ((world.modifyType id change).type other).lasting = (world.type other).lasting := by
    rw [type_modifyType]
    split
    · exact lasting _
    · rfl
  refine ⟨size_modifyType world id change, lastingType, ?_, rfl, ?_, rfl, rfl, .of_eq rfl, rfl⟩
  · intro other
    rw [type_modifyType]
    split
    · exact state _
    · rfl
  · intro shaped object membership
    refine (shaped object membership).of_linkages fun other linkage linked => ?_
    rw [← Class.lasting_linkage?, lastingType, Class.lasting_linkage?, linked]

/-- A change of resolved constants or static values. -/
theorem modifyDeclared (world : World) (id : ClassId) {change : DeclaredClass → DeclaredClass}
    (file : ∀ body, (change body).file = body.file)
    (linkage : ∀ body, (change body).linkage = body.linkage) :
    world.Keeps (world.modifyDeclared id change) := by
  apply modifyType
  · intro type
    cases kind : type.kind with
    | declared body => simp [Class.lasting, ClassKind.lasting, kind, file, linkage]
    | primitiveArray element supertypes => rfl
    | referenceArray component dimension supertypes => rfl
  · intro type
    cases type.kind <;> rfl

end Keeps
end World
end JavaMachine
