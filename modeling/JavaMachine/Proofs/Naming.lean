import JavaMachine.Proofs.Descriptor
import JavaMachine.Proofs.Soundness

/-!
# What names stand for

A loader asks the loaders of its chain before itself, so a class has a name to itself along a chain:
where it is entered all loaders before have settled the name as that of no class. Array classes are
named after their components. As long as nobody interferes with directories, a loader leads by a
name to one class at most, and what it has led to once it leads to ever after.
-/

namespace JavaMachine

theorem Class.head?_arrayName (type : Class) : type.arrayName.toList.head? = some '[' := by
  rw [arrayName]
  split <;> simp

namespace World

variable {world middle later : World} {loader parent other : LoaderId} {name : String}
variable {id component : ClassId} {found : Option ClassId}

/-! ### Directories and chains -/

/-- What a loader has settled a name to stand for, which may be no class. -/
def settled? (world : World) (loader : LoaderId) (name : String) : Option (Option ClassId) :=
  (world.loader loader).directory.entries.find? name

/-- A name whose definition is under way. -/
def Defining (world : World) (loader : LoaderId) (name : String) : Prop :=
  name ∈ (world.loader loader).directory.defining

theorem findLoaded_eq_getD (world : World) (loader : LoaderId) (name : String) :
    world.findLoaded loader name = (world.settled? loader name).getD none := rfl

theorem findLoaded_eq_some :
    world.findLoaded loader name = some id ↔ world.settled? loader name = some (some id) := by
  rw [findLoaded, Directory.find?, ← settled?]
  rcases world.settled? loader name with _ | found <;> simp

theorem loader_eq_default (absent : ¬ world.HasLoader loader) : world.loader loader = default := by
  simp [World.loader, Nat.not_lt.1 absent]

theorem settled?_eq_none (absent : ¬ world.HasLoader loader) :
    world.settled? loader name = none := by
  rw [settled?, loader_eq_default absent]
  rfl

theorem hasLoader_of_settled? (settled : world.settled? loader name = some found) :
    world.HasLoader loader := by
  apply Decidable.byContradiction
  intro absent
  rw [settled?_eq_none absent] at settled
  cases settled

theorem hasLoader_of_findLoaded (entry : world.findLoaded loader name = some id) :
    world.HasLoader loader :=
  hasLoader_of_settled? (findLoaded_eq_some.1 entry)

/-- The class is entered under its name with the loader that defined it. -/
def Registered (world : World) (id : ClassId) : Prop :=
  world.findLoaded (world.type id).loader (world.type id).name = some id

/-- The class is entered under its name with a loader that is asked. -/
structure Sees (world : World) (loader : LoaderId) (id : ClassId) : Prop where
  among : (world.type id).loader ∈ world.delegates loader
  registered : world.Registered id

/-- The class to which a loader leads by a name. The name of an array class may stand in its own
directory as well. -/
inductive LeadsTo (world : World) (loader : LoaderId) : String → ClassId → Prop where
  | entered {name : String} {id : ClassId} (bracket : name.toList.head? = some '[')
      (entry : world.findLoaded loader name = some id) : LeadsTo world loader name id
  | named {name : String} {id : ClassId} {definer : LoaderId}
      (plain : name.toList.head? ≠ some '[') (among : definer ∈ world.delegates loader)
      (entry : world.findLoaded definer name = some id) : LeadsTo world loader name id
  | primitiveArray {name : String} {id : ClassId} {element : Primitive}
      (written : FieldType.ofDescriptor? name = some (.array (.primitive element)))
      (entry : world.findLoaded .bootstrap (FieldType.array (.primitive element)).descriptor =
        some id) : LeadsTo world loader name id
  | referenceArray {name : String} {id component : ClassId} {type : FieldType}
      (written : FieldType.ofDescriptor? name = some (.array type))
      (reference : ¬ type.isPrimitive) (leads : LeadsTo world loader type.loadName component)
      (entry : world.findLoaded (world.type component).loader (world.type component).arrayName =
        some id) : LeadsTo world loader name id

/-- All loaders that are asked have looked for a name in vain, or for that of the component at the
bottom of the name of an array class. -/
inductive Lacks (world : World) (loader : LoaderId) : String → Prop where
  | plain {name : String} (plain : name.toList.head? ≠ some '[')
      (settled : ∀ parent ∈ world.delegates loader, world.HasLoader parent →
        world.settled? parent name = some none) : Lacks world loader name
  | array {name : String} {type : FieldType}
      (written : FieldType.ofDescriptor? name = some (.array type))
      (reference : ¬ type.isPrimitive) (below : Lacks world loader type.loadName) :
      Lacks world loader name

theorem Lacks.settled (lacks : world.Lacks loader name) (plain : name.toList.head? ≠ some '[')
    (among : parent ∈ world.delegates loader) (present : world.HasLoader parent) :
    world.settled? parent name = some none := by
  cases lacks with
  | plain _ settled => exact settled parent among present
  | array written => exact absurd (FieldType.head?_of_ofDescriptor?_array written) plain

theorem LeadsTo.exists_entry (leads : world.LeadsTo loader name id) :
    ∃ definer key, world.findLoaded definer key = some id := by
  cases leads with
  | entered _ entry | named _ _ entry | primitiveArray _ entry | referenceArray _ _ _ entry =>
      exact ⟨_, _, entry⟩

theorem LeadsTo.isUsable (leads : world.LeadsTo loader name id) (sound : world.Sound) :
    (world.type id).isUsable := by
  obtain ⟨definer, key, entry⟩ := leads.exists_entry
  exact sound.directories definer key id entry

theorem LeadsTo.exists_definer (leads : world.LeadsTo loader name id)
    (plain : name.toList.head? ≠ some '[') :
    ∃ definer ∈ world.delegates loader, world.findLoaded definer name = some id := by
  cases leads with
  | entered bracket => exact absurd bracket plain
  | named _ among entry => exact ⟨_, among, entry⟩
  | primitiveArray written | referenceArray written =>
      exact absurd (FieldType.head?_of_ofDescriptor?_array written) plain

/-- A loader leads to a declared class by its own name only. -/
theorem LeadsTo.name_eq (leads : world.LeadsTo loader name id) (sound : world.Sound)
    (declared : ¬ (world.type id).isArray) : (world.type id).name = name := by
  have plain := (sound.titles id (leads.isUsable sound)).declared declared
  cases leads with
  | entered _ entry | named _ _ entry => exact sound.names _ _ _ entry
  | @primitiveArray _ _ element _ entry =>
      rw [sound.names _ _ _ entry] at plain
      exact absurd (FieldType.isArrayName_ofPrimitives element).head? plain
  | referenceArray _ _ _ entry =>
      rw [sound.names _ _ _ entry] at plain
      exact absurd (Class.head?_arrayName _) plain

/-- What is named after a component whose name was read is named as array classes are. -/
theorem Sound.isArrayName_of_leadsTo (sound : world.Sound) {component : ClassId} {type : FieldType}
    (written : FieldType.ofDescriptor? name = some (.array type)) (reference : ¬ type.isPrimitive)
    (leads : world.LeadsTo loader type.loadName component) :
    FieldType.IsArrayName (world.type component).arrayName := by
  have titled := sound.titles component (leads.isUsable sound)
  rw [Class.arrayName]
  split
  next isArray =>
    obtain ⟨below, writtenBelow, plain⟩ := titled.array isArray
    exact ⟨.array below, by rw [FieldType.ofDescriptor?_bracket, writtenBelow]; rfl, plain⟩
  next declared =>
    have plain := titled.declared declared
    rw [leads.name_eq sound declared] at plain ⊢
    cases type with
    | primitive element => exact absurd rfl reference
    | array below => exact absurd below.head?_loadName_array plain
    | object className =>
        have none := FieldType.semicolon_notMem_of_read (FieldType.read_component written)
        exact ⟨.object className, FieldType.ofDescriptor?_arrayOfObjects none, plain⟩

/-- Arrays over a class whose name was read as that of a component are named as it was written. -/
theorem Sound.arrayName_eq (sound : world.Sound) {component : ClassId} {type : FieldType}
    (written : FieldType.ofDescriptor? name = some (.array type)) (reference : ¬ type.isPrimitive)
    (plain : type.IsPlain) (usable : (world.type component).isUsable)
    (named : (world.type component).name = type.loadName) :
    (world.type component).arrayName = name := by
  have titled := sound.titles component usable
  rw [← FieldType.descriptor_of_ofDescriptor? written, Class.arrayName]
  cases type with
  | primitive element => exact absurd rfl reference
  | object className =>
      have declared : ¬ (world.type component).isArray := by
        intro isArray
        have bracket := (titled.array isArray).head?
        rw [named] at bracket
        exact plain bracket
      rw [if_neg declared, named]
      simp [String.ext_iff, FieldType.loadName, FieldType.descriptor, FieldType.chars]
  | array below =>
      have isArray : (world.type component).isArray := by
        by_contra declared
        exact titled.declared declared (named ▸ below.head?_loadName_array)
      rw [if_pos isArray, named]
      simp [FieldType.loadName, FieldType.descriptor, FieldType.chars]

/-- The class to which a loader leads by a name has that name if and only if it is the name of a
class. -/
theorem Sound.name_eq_iff (sound : world.Sound) (leads : world.LeadsTo loader name id) :
    (world.type id).name = name ↔ FieldType.IsClassName name := by
  constructor
  · rintro rfl
    by_cases isArray : (world.type id).isArray
    · exact ((sound.titles id (leads.isUsable sound)).array isArray).isClassName
    · exact FieldType.isClassName_of_head?
        ((sound.titles id (leads.isUsable sound)).declared isArray)
  · intro named
    induction leads with
    | entered _ entry | named _ _ entry => exact sound.names _ _ _ entry
    | primitiveArray written entry =>
        rw [sound.names _ _ _ entry, FieldType.descriptor_of_ofDescriptor? written]
    | referenceArray written reference leads entry inductionHypothesis =>
        have plain := named _ written
        rw [sound.names _ _ _ entry]
        exact sound.arrayName_eq written reference plain (leads.isUsable sound)
          (inductionHypothesis (plain.isClassName_loadName written))

/-- The bootstrap loader asks no other. -/
theorem LeadsTo.entry_of_bootstrap (leads : world.LeadsTo .bootstrap name id) (sound : world.Sound)
    (plain : name.toList.head? ≠ some '[') : world.findLoaded .bootstrap name = some id := by
  obtain ⟨definer, among, entry⟩ := leads.exists_definer plain
  rw [delegates, sound.root, List.mem_singleton] at among
  rw [← among, entry]

/-- A loader leads by a name to the class that it has entered under it. -/
theorem leadsTo_of_findLoaded (entry : world.findLoaded loader name = some id) :
    world.LeadsTo loader name id := by
  by_cases bracket : name.toList.head? = some '['
  · exact .entered bracket entry
  · exact .named bracket List.mem_cons_self entry

/-! ### Changes that retain what names stand for -/

/-- Loaders stay as they are but for new entries, classes that are usable last, and canonical
strings and answers are only added. -/
structure Retains (world later : World) : Prop where
  usable : world.KeepsUsable later
  loaders : world.loaders.size ≤ later.loaders.size
  chain : ∀ loader, world.HasLoader loader →
    (later.loader loader).chain = (world.loader loader).chain
  sources : ∀ loader, world.HasLoader loader →
    (later.loader loader).sources = (world.loader loader).sources
  strings : ∀ text object, world.strings.find? text = some object →
    later.strings.find? text = some object
  settled : ∀ loader name found, world.settled? loader name = some found →
    later.settled? loader name = some found
  answers : ∀ (place : Nat) answer, world.answers[place]? = some answer →
    later.answers[place]? = some answer

/-- Besides, there are no new loaders, the same definitions are under way, and none of them has come
to an end meanwhile. -/
structure Settles (world later : World) : Prop extends world.Retains later where
  size : later.loaders.size = world.loaders.size
  defining : ∀ loader, (later.loader loader).directory.defining =
    (world.loader loader).directory.defining
  undecided : ∀ loader name, world.Defining loader name →
    later.settled? loader name = world.settled? loader name

theorem KeepsUsable.trans (first : world.KeepsUsable middle) (second : middle.KeepsUsable later) :
    world.KeepsUsable later :=
  fun id usable => (second id (first.isUsable usable)).trans (first id usable)

namespace Retains

theorem refl (world : World) : world.Retains world :=
  ⟨fun _ _ => rfl, Nat.le_refl _, fun _ _ => rfl, fun _ _ => rfl, fun _ _ => id, fun _ _ _ => id,
    fun _ _ => id⟩

theorem hasLoader (retains : world.Retains later) (present : world.HasLoader loader) :
    later.HasLoader loader :=
  Nat.lt_of_lt_of_le present retains.loaders

theorem trans (first : world.Retains middle) (second : middle.Retains later) :
    world.Retains later where
  usable := first.usable.trans second.usable
  loaders := Nat.le_trans first.loaders second.loaders
  chain loader present :=
    (second.chain loader (first.hasLoader present)).trans (first.chain loader present)
  sources loader present :=
    (second.sources loader (first.hasLoader present)).trans (first.sources loader present)
  strings text object known := second.strings text object (first.strings text object known)
  settled loader name found settled :=
    second.settled loader name found (first.settled loader name found settled)
  answers place answer given := second.answers place answer (first.answers place answer given)

theorem findLoaded (retains : world.Retains later)
    (entry : world.findLoaded loader name = some id) :
    later.findLoaded loader name = some id :=
  findLoaded_eq_some.2 (retains.settled _ _ _ (findLoaded_eq_some.1 entry))

theorem fileFor_eq (retains : world.Retains later) (present : world.HasLoader loader)
    (name : String) : later.fileFor loader name = world.fileFor loader name :=
  fileFor_eq_of_sources (retains.sources loader present) name

/-- Loaders that are asked go on being asked. -/
theorem mem_delegates (retains : world.Retains later) (among : parent ∈ world.delegates loader) :
    parent ∈ later.delegates loader := by
  by_cases present : world.HasLoader loader
  · rw [delegates, retains.chain loader present]
    exact among
  · rw [delegates, loader_eq_default present] at among
    rw [List.mem_singleton.1 among]
    exact List.mem_cons_self

theorem name_eq (retains : world.Retains later) (usable : (world.type id).isUsable) :
    (later.type id).name = (world.type id).name :=
  retains.usable.name_eq usable

theorem loader_eq (retains : world.Retains later) (usable : (world.type id).isUsable) :
    (later.type id).loader = (world.type id).loader :=
  retains.usable.loader_eq usable

theorem isArray_eq (retains : world.Retains later) (usable : (world.type id).isUsable) :
    (later.type id).isArray = (world.type id).isArray :=
  retains.usable.isArray_eq usable

theorem arrayName_eq (retains : world.Retains later) (usable : (world.type id).isUsable) :
    (later.type id).arrayName = (world.type id).arrayName := by
  rw [Class.arrayName, retains.isArray_eq usable, retains.name_eq usable, Class.arrayName]

theorem file?_eq (retains : world.Retains later) (usable : (world.type id).isUsable) :
    (later.type id).file? = (world.type id).file? :=
  retains.usable.file?_eq usable

theorem dimension_eq (retains : world.Retains later) (usable : (world.type id).isUsable) :
    (later.type id).dimension = (world.type id).dimension := by
  simpa using congrArg Class.dimension (retains.usable id usable)

theorem kind_eq (retains : world.Retains later) (isArray : (world.type id).isArray) :
    (later.type id).kind = (world.type id).kind :=
  Class.kind_of_lasting (retains.usable id (by simp [Class.isUsable, isArray])) isArray

end Retains

namespace Settles

theorem refl (world : World) : world.Settles world :=
  ⟨.refl world, rfl, fun _ => rfl, fun _ _ _ => rfl⟩

theorem trans (first : world.Settles middle) (second : middle.Settles later) :
    world.Settles later where
  toRetains := first.toRetains.trans second.toRetains
  size := second.size.trans first.size
  defining loader := (second.defining loader).trans (first.defining loader)
  undecided loader name underWay := by
    rw [second.undecided loader name, first.undecided loader name underWay]
    rw [Defining, first.defining]
    exact underWay

theorem hasLoader_iff (settles : world.Settles later) :
    later.HasLoader loader ↔ world.HasLoader loader := by
  rw [HasLoader, settles.size, HasLoader]

theorem idle (settles : world.Settles later) (underWay : later.Defining loader name) :
    world.Defining loader name := by
  rw [Defining, settles.defining] at underWay
  exact underWay

/-- The same loaders are asked. -/
theorem delegates_eq (settles : world.Settles later) (loader : LoaderId) :
    later.delegates loader = world.delegates loader := by
  by_cases present : world.HasLoader loader
  · rw [delegates, settles.chain loader present, delegates]
  · rw [delegates, delegates, loader_eq_default present,
      loader_eq_default (mt settles.hasLoader_iff.1 present)]

end Settles

/-- A name that was looked for in vain still is. -/
theorem Lacks.mono (lacks : world.Lacks loader name) (settles : world.Settles later) :
    later.Lacks loader name := by
  induction lacks with
  | plain plain settled =>
      refine .plain plain fun parent among present => ?_
      rw [settles.delegates_eq] at among
      exact settles.settled _ _ _ (settled parent among (settles.hasLoader_iff.1 present))
  | array written reference _ inductionHypothesis =>
      exact .array written reference inductionHypothesis

/-! ### Where classes have their places -/

/-- One of the static fields of the class starts with a canonical string. -/
def NeedsString (file : ClassFile) (linkage : Linkage) : Prop :=
  ∃ key slot text, linkage.fields.static.find? key = some slot ∧
    slot.field.firstValue? file = .ok (.string text)

/-- Linking the class has not led back to it: its supertypes are founded, and so is the class of
strings where it needs one. -/
inductive Founded (world : World) : ClassId → Prop where
  | intro {id : ClassId} {file : ClassFile} {linkage : Linkage}
      (declared : (world.type id).file? = some file)
      (linked : (world.type id).linkage? = some linkage)
      (supertypes : ∀ supertype ∈ linkage.supertypes, Founded world supertype)
      (known : NeedsString file linkage →
        (world.findLoaded .bootstrap WellKnown.stringClass).isSome)
      (strings : NeedsString file linkage → ∀ type,
        world.findLoaded .bootstrap WellKnown.stringClass = some type → Founded world type) :
      Founded world id

/-- What array classes inherit has been found by the bootstrap loader, as far as it is there. -/
structure AboveArrays (world : World) (supertypes : ArraySupertypes) : Prop where
  superclass : world.findLoaded .bootstrap WellKnown.objectClass = some supertypes.superclass
  interfaces : ∃ cloneable serializable,
    world.settled? .bootstrap WellKnown.cloneableClass = some cloneable ∧
      world.settled? .bootstrap WellKnown.serializableClass = some serializable ∧
        supertypes.interfaces = cloneable.toList ++ serializable.toList

theorem AboveArrays.exists_entry {supertypes : ArraySupertypes}
    (above : world.AboveArrays supertypes) {supertype : ClassId}
    (membership : supertype ∈ supertypes.superclass :: supertypes.interfaces) :
    ∃ name, name.toList.head? ≠ some '[' ∧ world.findLoaded .bootstrap name = some supertype := by
  obtain ⟨cloneable, serializable, settled, settledToo, same⟩ := above.interfaces
  rcases List.mem_cons.1 membership with rfl | isInterface
  · exact ⟨_, by decide, above.superclass⟩
  · rw [same, List.mem_append, Option.mem_toList, Option.mem_toList] at isInterface
    rcases isInterface with rfl | rfl
    · exact ⟨_, by decide, findLoaded_eq_some.2 settled⟩
    · exact ⟨_, by decide, findLoaded_eq_some.2 settledToo⟩

/-- A class with the name of no array class is linked if a directory lists it. -/
theorem Sound.linked_of_findLoaded (sound : world.Sound) (plain : name.toList.head? ≠ some '[')
    (entry : world.findLoaded loader name = some id) : (world.type id).linkage?.isSome := by
  have usable := sound.directories loader name id entry
  have declared : ¬ (world.type id).isArray := by
    intro isArray
    have named := ((sound.titles id usable).array isArray).head?
    rw [sound.names loader name id entry] at named
    exact plain named
  simpa [Class.isUsable, declared] using usable

/-- Array classes inherit from linked classes. -/
theorem AboveArrays.isLinked {supertypes : ArraySupertypes} (above : world.AboveArrays supertypes)
    (sound : world.Sound) {supertype : ClassId}
    (membership : supertype ∈ supertypes.superclass :: supertypes.interfaces) :
    (world.type supertype).linkage?.isSome := by
  obtain ⟨name, plain, entry⟩ := above.exists_entry membership
  exact sound.linked_of_findLoaded plain entry

/-- How an entered class has come by its name. A declared class has a file of its loader, and no
loader asked before has a class by its name; an array class has its name from its component. -/
inductive Placed (world : World) (id : ClassId) : Prop where
  | declared (declared : ¬ (world.type id).isArray)
      (plain : (world.type id).name.toList.head? ≠ some '[')
      (first : ∀ parent ∈ (world.loader (world.type id).loader).chain,
        world.settled? parent (world.type id).name = some none)
      {file : ClassFile} (isFile : (world.type id).file? = some file)
      (found : world.fileFor (world.type id).loader (world.type id).name = .ok (some file))
      (founded : world.Founded id)
  | primitiveArray {element : Primitive} {supertypes : ArraySupertypes}
      (kind : (world.type id).kind = .primitiveArray element supertypes)
      (loader : (world.type id).loader = .bootstrap)
      (name : (world.type id).name = (FieldType.array (.primitive element)).descriptor)
      (above : world.AboveArrays supertypes)
  | referenceArray {component : ClassId} {dimension : Nat} {supertypes : ArraySupertypes}
      {type : FieldType}
      (kind : (world.type id).kind = .referenceArray component dimension supertypes)
      (registered : world.Registered component)
      (loader : (world.type id).loader = (world.type component).loader)
      (name : (world.type id).name = (world.type component).arrayName)
      (dimension : dimension = (world.type component).dimension + 1)
      (written : FieldType.ofDescriptor? (world.type id).name = some (.array type))
      (reference : ¬ type.isPrimitive) (leads : type.loadName = (world.type component).name)
      (above : world.AboveArrays supertypes)

/-- A class that stands in a directory under a name. -/
structure Stands (world : World) (loader : LoaderId) (name : String) (id : ClassId) : Prop where
  loader : (world.type id).loader = loader
  name : (world.type id).name = name
  placed : world.Placed id

/-- Declared classes have plain names. -/
theorem Placed.plain (placed : world.Placed id) (declared : ¬ (world.type id).isArray) :
    (world.type id).name.toList.head? ≠ some '[' := by
  cases placed with
  | declared _ plain => exact plain
  | primitiveArray kind => exact absurd (Class.isArray_of_primitive kind) declared
  | referenceArray kind => exact absurd (Class.isArray_of_reference kind) declared

/-- Classes that stand under plain names are declared ones. -/
theorem Stands.not_isArray (stands : world.Stands loader name id)
    (plain : name.toList.head? ≠ some '[') : ¬ (world.type id).isArray := by
  cases stands.placed with
  | declared declared => exact declared
  | @primitiveArray element _ _ _ named =>
      have written := FieldType.ofDescriptor?_arrayOfPrimitives element
      rw [← named, stands.name] at written
      exact absurd (FieldType.head?_of_ofDescriptor?_array written) plain
  | referenceArray _ _ _ _ _ written =>
      rw [stands.name] at written
      exact absurd (FieldType.head?_of_ofDescriptor?_array written) plain

/-- Linking a class of a loader with a file has found supertypes that the loader sees, under the
names by which they are called. -/
structure Names (world : World) (loader : LoaderId) (file : ClassFile) (linkage : Linkage) :
    Prop where
  supertypes : ∀ supertype ∈ linkage.supertypes, world.Sees loader supertype
  root : linkage.superclass = none → file.superClass = 0
  superclass : ∀ superclass, linkage.superclass = some superclass →
    file.className? file.superClass = some (world.type superclass).name
  declared : file.interfaces.map file.className? =
    linkage.interfaces.map fun interface => some (world.type interface).name
  interfaces : ∀ interface ∈ linkage.interfaces,
    (linkage.allInterfaces.find? (world.type interface).name).isSome
  allInterfaces : ∀ name interface, linkage.allInterfaces.find? name = some interface →
    (world.type interface).name = name ∧ world.Sees loader interface

/-- The answers of loaders stay true and agree with each other. -/
structure Recalls (world : World) : Prop where
  earlier : ∀ (place : Nat) answer, world.answers[place]? = some answer → answer.earlier ≤ place
  leads : ∀ (place : Nat) answer id, world.answers[place]? = some answer →
    answer.outcome = .ok (some id) → world.LeadsTo answer.loader answer.name id
  agree : ∀ (place : Nat) answer, world.answers[place]? = some answer →
    ∀ before earlier, before < answer.earlier → world.answers[before]? = some earlier →
      earlier.loader = answer.loader → earlier.name = answer.name →
        ∀ id, earlier.outcome = .ok (some id) → answer.outcome = .ok (some id)

/-- Canonical strings are objects of the class of strings and carry their texts. -/
def StringsKnown (world : World) : Prop :=
  ∀ text object, world.strings.find? text = some object → ∃ type,
    world.findLoaded .bootstrap WellKnown.stringClass = some type ∧
      (world.object object).lasting = (type, some (.text text))

/-- The loader has no file for a name, which is not that of an array class. -/
structure Absent (world : World) (loader : LoaderId) (name : String) : Prop where
  plain : name.toList.head? ≠ some '['
  noFile : world.fileFor loader name = .ok none

/-- What holds of a world with whose directories nobody has interfered. -/
structure Regular (world : World) : Prop where
  entries : ∀ loader name id, world.findLoaded loader name = some id → world.Stands loader name id
  absent : ∀ loader name, world.settled? loader name = some none → world.Absent loader name
  strings : world.StringsKnown
  links : ∀ id file linkage, (world.type id).file? = some file →
    (world.type id).linkage? = some linkage → world.Names (world.type id).loader file linkage
  recalls : world.Recalls

section Retained

variable (sound : world.Sound) (retains : world.Retains later)
include sound retains

theorem Registered.mono (registered : world.Registered id) : later.Registered id := by
  have usable := sound.directories _ _ _ registered
  rw [Registered, retains.loader_eq usable, retains.name_eq usable]
  exact retains.findLoaded registered

theorem Sees.mono (sees : world.Sees loader id) : later.Sees loader id where
  among := by
    rw [retains.loader_eq (sound.directories _ _ _ sees.registered)]
    exact retains.mem_delegates sees.among
  registered := sees.registered.mono sound retains

/-- What a loader has led to it leads to ever after. -/
theorem LeadsTo.mono (leads : world.LeadsTo loader name id) : later.LeadsTo loader name id := by
  induction leads with
  | entered bracket entry => exact .entered bracket (retains.findLoaded entry)
  | named plain among entry =>
      exact .named plain (retains.mem_delegates among) (retains.findLoaded entry)
  | primitiveArray written entry => exact .primitiveArray written (retains.findLoaded entry)
  | @referenceArray name id component type written reference leads entry inductionHypothesis =>
      refine .referenceArray written reference inductionHypothesis ?_
      have usable := leads.isUsable sound
      rw [retains.loader_eq usable, retains.arrayName_eq usable]
      exact retains.findLoaded entry

omit sound in
theorem Founded.mono (founded : world.Founded id) : later.Founded id := by
  induction founded with
  | @intro id file linkage declared linked _ known _ supertypes strings =>
      have usable := Class.isUsable_of_linkage? (Option.isSome_of_eq_some linked)
      refine .intro ((retains.file?_eq usable).trans declared) (retains.usable.linkage? linked)
        supertypes ?_ ?_
      all_goals
        intro needs
        obtain ⟨type, found⟩ := Option.isSome_iff_exists.1 (known needs)
        rw [retains.findLoaded found]
      · rfl
      · rintro other ⟨⟩
        exact strings needs type found

omit sound in
theorem AboveArrays.mono {supertypes : ArraySupertypes} (above : world.AboveArrays supertypes) :
    later.AboveArrays supertypes where
  superclass := retains.findLoaded above.superclass
  interfaces := by
    obtain ⟨cloneable, serializable, settled, settledToo, same⟩ := above.interfaces
    exact ⟨cloneable, serializable, retains.settled _ _ _ settled, retains.settled _ _ _ settledToo,
      same⟩

theorem Placed.mono (usable : (world.type id).isUsable)
    (present : world.HasLoader (world.type id).loader) (placed : world.Placed id) :
    later.Placed id := by
  have sameName := retains.name_eq usable
  have sameLoader := retains.loader_eq usable
  cases placed with
  | declared declared plain first isFile found founded =>
      refine .declared ?_ ?_ ?_ ((retains.file?_eq usable).trans isFile) ?_
        (founded.mono retains)
      · rwa [retains.isArray_eq usable]
      · rwa [sameName]
      · rw [sameName, sameLoader, retains.chain _ present]
        exact fun parent among => retains.settled _ _ _ (first parent among)
      · rw [sameName, sameLoader, retains.fileFor_eq present]
        exact found
  | primitiveArray kind loader name above =>
      have isArray := Class.isArray_of_primitive kind
      exact .primitiveArray ((retains.kind_eq isArray).trans kind) (sameLoader.trans loader)
        (sameName.trans name) (above.mono retains)
  | referenceArray kind registered loader name dimension written reference leads above =>
      have isArray := Class.isArray_of_reference kind
      have usableBelow := sound.directories _ _ _ registered
      refine .referenceArray ((retains.kind_eq isArray).trans kind) (registered.mono sound retains)
        ?_ ?_ ?_ (sameName ▸ written) reference ?_ (above.mono retains)
      · rw [sameLoader, loader, retains.loader_eq usableBelow]
      · rw [sameName, name, retains.arrayName_eq usableBelow]
      · rw [dimension, retains.dimension_eq usableBelow]
      · rw [leads, retains.name_eq usableBelow]

theorem Names.mono {file : ClassFile} {linkage : Linkage}
    (names : world.Names loader file linkage) : later.Names loader file linkage where
  supertypes supertype membership := (names.supertypes supertype membership).mono sound retains
  root := names.root
  declared := by
    rw [names.declared]
    refine List.map_congr_left fun interface declared => ?_
    have sees := names.supertypes interface (mem_supertypes_of_interface declared)
    rw [retains.name_eq (sound.directories _ _ _ sees.registered)]
  superclass superclass above := by
    have sees := names.supertypes superclass (mem_supertypes_of_superclass above)
    rw [retains.name_eq (sound.directories _ _ _ sees.registered)]
    exact names.superclass superclass above
  interfaces interface declared := by
    have sees := names.supertypes interface (mem_supertypes_of_interface declared)
    rw [retains.name_eq (sound.directories _ _ _ sees.registered)]
    exact names.interfaces interface declared
  allInterfaces name interface found := by
    obtain ⟨same, sees⟩ := names.allInterfaces name interface found
    refine ⟨?_, sees.mono sound retains⟩
    rw [retains.name_eq (sound.directories _ _ _ sees.registered), same]

end Retained

/-! ### Changes that keep a world regular -/

theorem Stands.mono (sound : world.Sound) (retains : world.Retains later)
    (usable : (world.type id).isUsable) (present : world.HasLoader loader)
    (stands : world.Stands loader name id) : later.Stands loader name id where
  loader := (retains.loader_eq usable).trans stands.loader
  name := (retains.name_eq usable).trans stands.name
  placed := stands.placed.mono sound retains usable (stands.loader.symm ▸ present)

theorem Recalls.of_same (recalls : world.Recalls) (sound : world.Sound)
    (retains : world.Retains later) (answers : later.answers = world.answers) : later.Recalls where
  earlier := answers ▸ recalls.earlier
  leads place answer id given outcome :=
    (recalls.leads place answer id (answers ▸ given) outcome).mono sound retains
  agree := answers ▸ recalls.agree

theorem StringsKnown.of_same (known : world.StringsKnown) (retains : world.Retains later)
    (objects : world.KeepsObjects later) (strings : later.strings = world.strings) :
    later.StringsKnown := by
  intro text object found
  rw [strings] at found
  obtain ⟨type, entry, lasting⟩ := known text object found
  refine ⟨type, retains.findLoaded entry, ?_⟩
  rw [objects.lasting object (present_of_lasting (congrArg Prod.snd lasting) nofun), lasting]

theorem Absent.mono (absent : world.Absent loader name) (retains : world.Retains later)
    (present : world.HasLoader loader) : later.Absent loader name :=
  ⟨absent.plain, (retains.fileFor_eq present name).trans absent.noFile⟩

theorem Regular.of_changes (regular : world.Regular) (sound : world.Sound)
    (retains : world.Retains later)
    (entries : ∀ loader name id, later.findLoaded loader name = some id →
      world.findLoaded loader name = some id ∨ later.Stands loader name id)
    (absent : ∀ loader name, later.settled? loader name = some none →
      world.settled? loader name = some none ∨ later.Absent loader name)
    (strings : later.StringsKnown)
    (links : ∀ id file linkage, (later.type id).file? = some file →
      (later.type id).linkage? = some linkage →
        (world.type id).file? = some file ∧ (world.type id).linkage? = some linkage ∨
          later.Names (later.type id).loader file linkage)
    (recalls : later.Recalls) : later.Regular where
  entries loader name id entry := by
    rcases entries loader name id entry with known | stands
    · exact (regular.entries loader name id known).mono sound retains
        (sound.directories loader name id known) (hasLoader_of_findLoaded known)
    · exact stands
  absent loader name settled := by
    refine (absent loader name settled).elim (fun before => ?_) fun now => now
    exact (regular.absent loader name before).mono retains (hasLoader_of_settled? before)
  strings := strings
  links id file linkage declared linked := by
    rcases links id file linkage declared linked with ⟨known, linkedBefore⟩ | names
    · have usable := Class.isUsable_of_linkage? (Option.isSome_of_eq_some linkedBefore)
      rw [retains.loader_eq usable]
      exact (regular.links id file linkage known linkedBefore).mono sound retains
    · exact names
  recalls := recalls

/-! ### Names along a chain -/

/-- What a loader that is asked asks comes after it. -/
theorem Sound.suffix_chain (sound : world.Sound)
    (above : parent ∈ (world.loader loader).chain) :
    world.delegates parent <:+ (world.loader loader).chain := by
  induction size : (world.loader loader).chain.length using Nat.strongRecOn
    generalizing loader with
  | ind size inductionHypothesis =>
      rcases sound.chains loader with none | ⟨next, _, same⟩
      · rw [none] at above
        cases above
      · rw [same] at above size ⊢
        rcases List.mem_cons.1 above with first | rest
        · exact first ▸ List.suffix_rfl
        · have shorter : (world.loader next).chain.length < (world.delegates next).length :=
            Nat.lt_succ_self _
          exact (inductionHypothesis _ (size ▸ shorter) rest rfl).trans (List.suffix_cons _ _)

/-- Loaders that are asked are there. -/
theorem Sound.hasLoader_of_chain (sound : world.Sound)
    (above : parent ∈ (world.loader loader).chain) : world.HasLoader parent := by
  induction size : (world.loader loader).chain.length using Nat.strongRecOn
    generalizing loader with
  | ind size inductionHypothesis =>
      rcases sound.chains loader with none | ⟨next, present, same⟩
      · rw [none] at above
        cases above
      · rw [same] at above size
        rcases List.mem_cons.1 above with first | rest
        · rwa [first]
        · have shorter : (world.loader next).chain.length < (world.delegates next).length :=
            Nat.lt_succ_self _
          exact inductionHypothesis _ (size ▸ shorter) rest rfl

theorem Sound.suffix_delegates (sound : world.Sound)
    (among : parent ∈ world.delegates loader) :
    world.delegates parent <:+ world.delegates loader := by
  rcases List.mem_cons.1 among with same | above
  · exact same ▸ List.suffix_rfl
  · exact (sound.suffix_chain above).trans (List.suffix_cons _ _)

/-- Of two loaders that are asked one asks the other, unless they are the same. -/
theorem Sound.chain_linear (sound : world.Sound) (among : parent ∈ world.delegates loader)
    (amongToo : other ∈ world.delegates loader) :
    parent = other ∨ other ∈ (world.loader parent).chain ∨ parent ∈ (world.loader other).chain := by
  have later {first second : LoaderId}
      (suffix : world.delegates first <:+ world.delegates second) :
      first = second ∨ first ∈ (world.loader second).chain :=
    List.mem_cons.1 (suffix.subset List.mem_cons_self)
  rcases List.suffix_or_suffix_of_suffix (sound.suffix_delegates among)
    (sound.suffix_delegates amongToo) with first | second
  · rcases later first with same | above
    · exact .inl same
    · exact .inr (.inr above)
  · rcases later second with same | above
    · exact .inl same.symm
    · exact .inr (.inl above)

theorem Sound.sees_of_sees (sound : world.Sound) (among : parent ∈ world.delegates loader)
    (sees : world.Sees parent id) : world.Sees loader id :=
  ⟨(sound.suffix_delegates among).subset sees.among, sees.registered⟩

/-- Along a chain a plain name stands for one class at most. -/
theorem Regular.entry_unique (regular : world.Regular) (sound : world.Sound)
    {first second : ClassId} (plain : name.toList.head? ≠ some '[')
    (among : parent ∈ world.delegates loader) (entry : world.findLoaded parent name = some first)
    (amongToo : other ∈ world.delegates loader)
    (entryToo : world.findLoaded other name = some second) : first = second := by
  have settled {one another : LoaderId} {id next : ClassId}
      (entry : world.findLoaded one name = some id)
      (above : another ∈ (world.loader one).chain)
      (entryToo : world.findLoaded another name = some next) : False := by
    have stands := regular.entries one name id entry
    have isDeclared := stands.not_isArray plain
    cases stands.placed with
    | declared _ _ first =>
        rw [stands.loader, stands.name] at first
        rw [findLoaded_eq_some, first another above] at entryToo
        cases entryToo
    | primitiveArray kind => exact isDeclared (Class.isArray_of_primitive kind)
    | referenceArray kind => exact isDeclared (Class.isArray_of_reference kind)
  rcases sound.chain_linear among amongToo with same | above | above
  · subst same
    rw [entry] at entryToo
    exact Option.some_inj.1 entryToo
  · exact (settled entry above entryToo).elim
  · exact (settled entryToo above entry).elim

/-- A loader sees one declared class with a name at most. -/
theorem Regular.sees_unique (regular : world.Regular) (sound : world.Sound)
    {first second : ClassId}
    (sees : world.Sees loader first) (declared : ¬ (world.type first).isArray)
    (seesToo : world.Sees loader second)
    (same : (world.type first).name = (world.type second).name) : first = second := by
  have plain := (regular.entries _ _ _ sees.registered).placed.plain declared
  exact regular.entry_unique sound plain sees.among sees.registered seesToo.among
    (same ▸ seesToo.registered)

theorem Regular.registered_of_findLoaded (regular : world.Regular)
    (entry : world.findLoaded loader name = some id) : world.Registered id := by
  have stands := regular.entries loader name id entry
  rw [Registered, stands.loader, stands.name]
  exact entry

theorem Regular.registered_of_leadsTo (regular : world.Regular)
    (leads : world.LeadsTo loader name id) : world.Registered id := by
  obtain ⟨definer, key, entry⟩ := leads.exists_entry
  exact regular.registered_of_findLoaded entry

/-- Classes with names that begin with a bracket are array classes. -/
theorem Regular.isArray_of_findLoaded (regular : world.Regular)
    (entry : world.findLoaded loader name = some id) (bracket : name.toList.head? = some '[') :
    (world.type id).isArray := by
  have stands := regular.entries loader name id entry
  cases stands.placed with
  | declared _ plain _ =>
      rw [stands.name] at plain
      exact absurd bracket plain
  | primitiveArray kind => exact Class.isArray_of_primitive kind
  | referenceArray kind => exact Class.isArray_of_reference kind

/-- A loader sees the declared classes to which it leads, under their names. -/
theorem Regular.sees_of_leadsTo (regular : world.Regular) (leads : world.LeadsTo loader name id)
    (declared : ¬ (world.type id).isArray) :
    world.Sees loader id ∧ (world.type id).name = name := by
  cases leads with
  | entered bracket entry =>
      exact absurd (regular.isArray_of_findLoaded entry bracket) declared
  | @named _ _ definer plain among entry =>
      have stands := regular.entries definer name id entry
      exact ⟨⟨stands.loader.symm ▸ among, regular.registered_of_findLoaded entry⟩, stands.name⟩
  | @primitiveArray _ _ element _ entry =>
      have written := FieldType.ofDescriptor?_arrayOfPrimitives element
      exact absurd (regular.isArray_of_findLoaded entry
        (FieldType.head?_of_ofDescriptor?_array written)) declared
  | @referenceArray _ _ component _ _ _ _ entry =>
      exact absurd (regular.isArray_of_findLoaded entry
        (Class.head?_arrayName (world.type component))) declared

/-- An array class that has been entered under a name is the one that the name describes, and the
loader leads to its component. -/
theorem Regular.describes (regular : world.Regular) {type : FieldType}
    (written : FieldType.ofDescriptor? name = some (.array type))
    (entry : world.findLoaded loader name = some id) :
    (∃ element, type = .primitive element ∧
      world.findLoaded .bootstrap (FieldType.array (.primitive element)).descriptor = some id) ∨
    ¬ type.isPrimitive ∧ ∃ component, world.LeadsTo loader type.loadName component ∧
      world.findLoaded (world.type component).loader (world.type component).arrayName =
        some id := by
  have stands := regular.entries loader name id entry
  cases stands.placed with
  | declared declared =>
      exact absurd (regular.isArray_of_findLoaded entry
        (FieldType.head?_of_ofDescriptor?_array written)) declared
  | @primitiveArray element _ _ home named =>
      rw [stands.loader] at home
      rw [stands.name] at named
      have own := FieldType.ofDescriptor?_arrayOfPrimitives element
      rw [← named, written] at own
      cases own
      exact .inl ⟨element, rfl, home ▸ named ▸ entry⟩
  | @referenceArray component _ _ _ _ registered home named _ own reference below =>
      rw [stands.loader] at home
      rw [stands.name] at named own
      rw [written] at own
      cases own
      refine .inr ⟨reference, component, ?_, home ▸ named ▸ entry⟩
      rw [below, home]
      exact leadsTo_of_findLoaded registered

/-- Only names of array types begin with a bracket. -/
theorem Regular.written_of_leadsTo (regular : world.Regular)
    (bracket : name.toList.head? = some '[') (leads : world.LeadsTo loader name id) :
    ∃ type, FieldType.ofDescriptor? name = some (.array type) := by
  cases leads with
  | entered _ entry =>
      have stands := regular.entries loader name id entry
      cases stands.placed with
      | declared declared =>
          exact absurd (regular.isArray_of_findLoaded entry bracket) declared
      | @primitiveArray element _ _ _ named =>
          rw [stands.name] at named
          rw [named]
          exact ⟨_, FieldType.ofDescriptor?_arrayOfPrimitives element⟩
      | referenceArray _ _ _ _ _ written => exact ⟨_, stands.name ▸ written⟩
  | named plain => exact absurd bracket plain
  | primitiveArray written | referenceArray written => exact ⟨_, written⟩

/-- By the name of an array class a loader leads to the one that the name describes. -/
theorem Regular.leadsTo_array (regular : world.Regular) {type : FieldType}
    (written : FieldType.ofDescriptor? name = some (.array type))
    (leads : world.LeadsTo loader name id) :
    (∃ element, type = .primitive element ∧
      world.findLoaded .bootstrap (FieldType.array (.primitive element)).descriptor = some id) ∨
    ¬ type.isPrimitive ∧ ∃ component, world.LeadsTo loader type.loadName component ∧
      world.findLoaded (world.type component).loader (world.type component).arrayName =
        some id := by
  cases leads with
  | entered _ entry => exact regular.describes written entry
  | named plain => exact absurd (FieldType.head?_of_ofDescriptor?_array written) plain
  | @primitiveArray _ _ element own entry =>
      rw [written] at own
      cases own
      exact .inl ⟨element, rfl, entry⟩
  | @referenceArray _ _ component _ own reference leads entry =>
      rw [written] at own
      cases own
      exact .inr ⟨reference, component, leads, entry⟩

/-- A loader leads by a name to one class at most. -/
theorem Regular.leadsTo_unique (regular : world.Regular) (sound : world.Sound) {other : ClassId}
    (leads : world.LeadsTo loader name id) (leadsToo : world.LeadsTo loader name other) :
    other = id := by
  have same {definer : LoaderId} {key : String} {first second : ClassId}
      (entry : world.findLoaded definer key = some first)
      (entryToo : world.findLoaded definer key = some second) : second = first := by
    rw [entry] at entryToo
    exact (Option.some_inj.1 entryToo).symm
  -- the name of an array class leads on to the shorter name of the component
  induction length : name.length using Nat.strongRecOn generalizing name id other with
  | ind length inductionHypothesis =>
      by_cases plain : name.toList.head? ≠ some '['
      · obtain ⟨definer, among, entry⟩ := leads.exists_definer plain
        obtain ⟨definerToo, amongToo, entryToo⟩ := leadsToo.exists_definer plain
        exact regular.entry_unique sound plain amongToo entryToo among entry
      · obtain ⟨type, written⟩ := regular.written_of_leadsTo (not_not.1 plain) leads
        rcases regular.leadsTo_array written leads with
          ⟨element, isPrimitive, entry⟩ | ⟨reference, component, leads, entry⟩
        all_goals
          rcases regular.leadsTo_array written leadsToo with
            ⟨elementToo, isPrimitiveToo, entryToo⟩ |
            ⟨referenceToo, componentToo, leadsToo, entryToo⟩
        · rw [isPrimitive] at isPrimitiveToo
          cases isPrimitiveToo
          exact same entry entryToo
        · exact absurd (isPrimitive ▸ rfl) referenceToo
        · exact absurd (isPrimitiveToo ▸ rfl) reference
        · have shorter := FieldType.length_loadName_lt written
          have components := inductionHypothesis _ (length ▸ shorter) leads leadsToo rfl
          rw [components] at entryToo
          exact same entry entryToo

/-- The name of an array class tells its component, for which its name was found. -/
theorem Regular.written_arrayName (regular : world.Regular) {type : FieldType}
    (written : FieldType.ofDescriptor? name = some (.array type)) (reference : ¬ type.isPrimitive)
    (leads : world.LeadsTo loader type.loadName component) :
    ∃ own, FieldType.ofDescriptor? (world.type component).arrayName = some (.array own) ∧
      ¬ own.isPrimitive ∧ own.loadName = (world.type component).name := by
  have oneMore {own : FieldType} (isArray : (world.type component).isArray)
      (written : FieldType.ofDescriptor? (world.type component).name = some (.array own)) :
      ∃ own, FieldType.ofDescriptor? (world.type component).arrayName = some (.array own) ∧
        ¬ own.isPrimitive ∧ own.loadName = (world.type component).name := by
    refine ⟨.array own, ?_, Bool.false_ne_true, FieldType.descriptor_of_ofDescriptor? written⟩
    rw [Class.arrayName, if_pos isArray, FieldType.ofDescriptor?_bracket, written]
    rfl
  cases (regular.entries _ _ _ (regular.registered_of_leadsTo leads)).placed with
  | declared declared plain _ =>
      obtain ⟨_, named⟩ := regular.sees_of_leadsTo leads declared
      cases type with
      | primitive element => exact absurd rfl reference
      | array below =>
          rw [named] at plain
          exact absurd below.head?_loadName_array plain
      | object className =>
          refine ⟨.object className, ?_, Bool.false_ne_true, named.symm⟩
          have none := FieldType.semicolon_notMem_of_read (FieldType.read_component written)
          rw [Class.arrayName, if_neg declared, named]
          exact FieldType.ofDescriptor?_arrayOfObjects none
  | @primitiveArray element _ kind _ named =>
      apply oneMore (Class.isArray_of_primitive kind)
      rw [named]
      exact FieldType.ofDescriptor?_arrayOfPrimitives element
  | referenceArray kind _ _ _ _ written =>
      exact oneMore (Class.isArray_of_reference kind) written

end World
end JavaMachine
