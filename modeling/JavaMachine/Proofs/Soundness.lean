import JavaMachine.Loading
import JavaMachine.Proofs.Descriptor
import JavaMachine.Proofs.FieldLayout
import JavaMachine.Proofs.Files

/-!
# Sound worlds

In a sound world directories lead to usable classes only, and by their own names, which tell array
classes from others. Loaders ask loaders that are there, the bootstrap loader last, and what linking
has attached to a class fits its file and the classes it names: they are linked themselves, and
heights, tables, layouts and interfaces are those computed from theirs.
-/

namespace JavaMachine

/-- The superclass, if there is one, and the declared interfaces. -/
def Linkage.supertypes (linkage : Linkage) : List ClassId :=
  linkage.superclass.toList ++ linkage.interfaces

/-- The class has the name and the flags that its file declares, if it has one. -/
def Class.Heads (type : Class) : Prop :=
  ∀ file, type.file? = some file → file.name? = some type.name ∧ file.flags = type.flags

theorem Class.Heads.of_lasting {type other : Class} (heads : type.Heads)
    (same : other.lasting = type.lasting) : other.Heads := by
  have name := congrArg Class.name same
  have flags := congrArg Class.flags same
  have file := congrArg Class.file? same
  simp only [lasting_name, lasting_flags, lasting_file?] at name flags file
  intro own declared
  rw [name, flags]
  exact heads own (file ▸ declared)

theorem Class.heads_of_isArray {type : Class} (isArray : type.isArray) : type.Heads := by
  intro file declared
  rw [file?_of_isArray isArray] at declared
  cases declared

/-- A class that a file declares comes without a linkage. -/
theorem Class.linkage?_of_declared {type : Class} {file : ClassFile}
    (kind : type.kind = .declared { file }) : type.linkage? = none := by
  rw [linkage?, declared?_eq_some.2 kind]
  rfl

/-- The name of an array class is the descriptor of a type, and other names do not begin like it. -/
structure Class.Titled (type : Class) : Prop where
  array : type.isArray → FieldType.IsArrayName type.name
  declared : ¬ type.isArray → type.name.toList.head? ≠ some '['

theorem Class.Titled.of_lasting {type other : Class} (titled : type.Titled)
    (same : other.lasting = type.lasting) : other.Titled := by
  have name := congrArg Class.name same
  have isArray := congrArg Class.isArray same
  simp only [lasting_name, lasting_isArray] at name isArray
  constructor
  · rw [isArray, name]
    exact titled.array
  · rw [isArray, name]
    exact titled.declared

theorem Class.isUsable_of_linkage? {type : Class} (linked : type.linkage?.isSome) :
    type.isUsable := by
  simp [isUsable, linked]

theorem Class.isUsable_of_isArray {type : Class} (isArray : type.isArray) : type.isUsable := by
  simp [isUsable, isArray]

namespace World

/-- The dispatch table that a class starts from. -/
def inheritedVirtual (world : World) (superclass : Option ClassId) : Table String Method :=
  (superclass.map fun superclass => (world.type superclass).methods.virtual).getD {}

/-- The layout that a class starts from. -/
def inheritedFields (world : World) (superclass : Option ClassId) : FieldLayout :=
  (superclass.map fun superclass => (world.type superclass).fields).getD {}

/-- The layout of a class before its own fields are added. -/
def layoutAbove (world : World) (superclass : Option ClassId) (interfaces : List ClassId) :
    FieldLayout :=
  .inherit (world.inheritedFields superclass).slots
    (interfaces.map fun interface => (world.type interface).fields.slots)

/-- What linking gives a class named `name` with the file `file` agrees with its supertypes. -/
structure Fits (world : World) (id : ClassId) (name : String) (file : ClassFile)
    (linkage : Linkage) : Prop where
  linked : ∀ supertype ∈ linkage.supertypes, (world.type supertype).linkage?.isSome
  root : linkage.superclass = none ↔ name = WellKnown.objectClass
  superclass : ∀ superclass, linkage.superclass = some superclass →
    ¬ (world.type superclass).isInterface
  notFinal : ∀ superclass, linkage.superclass = some superclass →
    ¬ (world.type superclass).isFinal
  isInterface : ∀ interface ∈ linkage.interfaces, (world.type interface).isInterface
  interfaces : linkage.interfaces.length = file.interfaces.length
  height : linkage.height = heightAbove (linkage.supertypes.map world.linkedHeight)
  methods : MethodTables.build file id name (world.inheritedVirtual linkage.superclass)
    (linkage.interfaces.map fun interface => (world.type interface).methods.virtual) =
      .ok linkage.methods
  fields : FieldLayout.addAll file id name file.fields
    (.inherit (world.inheritedFields linkage.superclass).slots
      (linkage.interfaces.map fun interface => (world.type interface).fields.slots)) =
        .ok linkage.fields
  attributes : ClassAttributes.ofFile file = .ok linkage.attributes
  firstValues : ∀ key slot, linkage.fields.static.find? key = some slot →
    ∃ first, slot.field.firstValue? file = .ok first
  allInterfaces : ∀ name interface, linkage.allInterfaces.find? name = some interface →
    interface ∈ linkage.interfaces ∨ ∃ supertype ∈ linkage.supertypes, ∃ inherited,
      (world.type supertype).linkage? = some inherited ∧
        inherited.allInterfaces.find? name = some interface
  covers : ∀ supertype ∈ linkage.supertypes, ∀ inherited,
    (world.type supertype).linkage? = some inherited → ∀ name,
      (inherited.allInterfaces.find? name).isSome → (linkage.allInterfaces.find? name).isSome

/-- The loader is there. -/
def HasLoader (world : World) (loader : LoaderId) : Prop := loader.index < world.loaders.size

instance (world : World) (loader : LoaderId) : Decidable (world.HasLoader loader) :=
  inferInstanceAs (Decidable (loader.index < world.loaders.size))

/-- The loader and those that it asks, the next one first. -/
def delegates (world : World) (loader : LoaderId) : List LoaderId :=
  loader :: (world.loader loader).chain

/-- What holds of a world between two pieces of work. -/
structure Sound (world : World) : Prop where
  bootstrap : world.HasLoader .bootstrap
  root : (world.loader .bootstrap).chain = []
  top : ∀ loader, world.HasLoader loader → .bootstrap ∈ world.delegates loader
  chains : ∀ loader, (world.loader loader).chain = [] ∨
    ∃ parent, world.HasLoader parent ∧ (world.loader loader).chain = world.delegates parent
  directories : ∀ loader name id, world.findLoaded loader name = some id →
    (world.type id).isUsable
  names : ∀ loader name id, world.findLoaded loader name = some id → (world.type id).name = name
  titles : ∀ id, (world.type id).isUsable → (world.type id).Titled
  homes : ∀ id, id.index < world.classes.size → world.HasLoader (world.type id).loader
  heads : ∀ id, id.index < world.classes.size → (world.type id).Heads
  links : ∀ id file linkage, (world.type id).file? = some file →
    (world.type id).linkage? = some linkage → world.Fits id (world.type id).name file linkage
  objects : world.ObjectsShaped

variable {world middle later : World} {id other : ClassId} {linkage : Linkage}

/-! ### What fits goes on fitting -/

/-- Usable classes last. -/
def KeepsUsable (world later : World) : Prop :=
  ∀ id, (world.type id).isUsable → (later.type id).lasting = (world.type id).lasting

/-- A class that is usable is there. -/
theorem present_of_isUsable (usable : (world.type id).isUsable) :
    id.index < world.classes.size := by
  apply Nat.lt_of_not_ge
  intro absent
  rw [type_eq_default absent] at usable
  cases usable

namespace KeepsUsable

theorem isUsable (keeps : world.KeepsUsable later) (usable : (world.type id).isUsable) :
    (later.type id).isUsable := by
  rw [← Class.lasting_isUsable, keeps id usable, Class.lasting_isUsable, usable]

section Usable

variable (keeps : world.KeepsUsable later) (usable : (world.type id).isUsable)
include keeps usable

theorem name_eq : (later.type id).name = (world.type id).name := by
  simpa using congrArg Class.name (keeps id usable)

theorem flags_eq : (later.type id).flags = (world.type id).flags := by
  simpa using congrArg Class.flags (keeps id usable)

theorem loader_eq : (later.type id).loader = (world.type id).loader := by
  simpa using congrArg Class.loader (keeps id usable)

theorem isArray_eq : (later.type id).isArray = (world.type id).isArray := by
  simpa using congrArg Class.isArray (keeps id usable)

theorem dimension_eq : (later.type id).dimension = (world.type id).dimension := by
  simpa using congrArg Class.dimension (keeps id usable)

theorem component?_eq : (later.type id).component? = (world.type id).component? := by
  simpa using congrArg Class.component? (keeps id usable)

theorem file?_eq : (later.type id).file? = (world.type id).file? := by
  simpa using congrArg Class.file? (keeps id usable)

theorem superclass?_eq : (later.type id).superclass? = (world.type id).superclass? := by
  simpa using congrArg Class.superclass? (keeps id usable)

theorem interfaces_eq : (later.type id).interfaces = (world.type id).interfaces := by
  simpa using congrArg Class.interfaces (keeps id usable)

theorem interface?_eq (name : String) :
    (later.type id).interface? name = (world.type id).interface? name := by
  have linkage := congrArg Class.linkage? (keeps id usable)
  simp only [Class.lasting_linkage?] at linkage
  rw [Class.interface?, linkage, Class.interface?]

end Usable

theorem linkage?_eq (keeps : world.KeepsUsable later)
    (linked : (world.type id).linkage?.isSome) :
    (later.type id).linkage? = (world.type id).linkage? := by
  have same := congrArg Class.linkage? (keeps id (Class.isUsable_of_linkage? linked))
  simpa using same

theorem linkage? (keeps : world.KeepsUsable later)
    (linked : (world.type id).linkage? = some linkage) :
    (later.type id).linkage? = some linkage := by
  rw [keeps.linkage?_eq (by simp [linked]), linked]

theorem methods_eq (keeps : world.KeepsUsable later)
    (linked : (world.type id).linkage?.isSome) :
    (later.type id).methods = (world.type id).methods := by
  rw [Class.methods, keeps.linkage?_eq linked, Class.methods]

theorem fields_eq (keeps : world.KeepsUsable later)
    (linked : (world.type id).linkage?.isSome) :
    (later.type id).fields = (world.type id).fields := by
  rw [Class.fields, keeps.linkage?_eq linked, Class.fields]

theorem linkedHeight_eq (keeps : world.KeepsUsable later)
    (linked : (world.type id).linkage?.isSome) :
    later.linkedHeight id = world.linkedHeight id := by
  rw [linkedHeight, keeps.linkage?_eq linked, linkedHeight]

theorem isInterface_eq (keeps : world.KeepsUsable later)
    (linked : (world.type id).linkage?.isSome) :
    (later.type id).isInterface = (world.type id).isInterface := by
  rw [Class.isInterface, keeps.flags_eq (Class.isUsable_of_linkage? linked), Class.isInterface]

theorem isFinal_eq (keeps : world.KeepsUsable later)
    (linked : (world.type id).linkage?.isSome) :
    (later.type id).isFinal = (world.type id).isFinal := by
  rw [Class.isFinal, keeps.flags_eq (Class.isUsable_of_linkage? linked), Class.isFinal]

theorem shaped (keeps : world.KeepsUsable later) (shaped : world.ObjectsShaped)
    (objects : later.objects = world.objects) : later.ObjectsShaped := by
  intro object membership
  exact (shaped object (objects ▸ membership)).of_linkages fun _ _ => keeps.linkage?

theorem inheritedVirtual_eq (keeps : world.KeepsUsable later) {superclass : Option ClassId}
    (linked : ∀ id, superclass = some id → (world.type id).linkage?.isSome) :
    later.inheritedVirtual superclass = world.inheritedVirtual superclass := by
  cases superclass with
  | none => rfl
  | some id => simp [inheritedVirtual, keeps.methods_eq (linked id rfl)]

theorem inheritedFields_eq (keeps : world.KeepsUsable later) {superclass : Option ClassId}
    (linked : ∀ id, superclass = some id → (world.type id).linkage?.isSome) :
    later.inheritedFields superclass = world.inheritedFields superclass := by
  cases superclass with
  | none => rfl
  | some id => simp [inheritedFields, keeps.fields_eq (linked id rfl)]

end KeepsUsable

theorem Grows.keepsUsable (grows : world.Grows later) : world.KeepsUsable later :=
  fun id usable => grows.lasting id (present_of_isUsable usable)

theorem mem_supertypes_of_superclass (superclass : linkage.superclass = some id) :
    id ∈ linkage.supertypes := by
  simp [Linkage.supertypes, superclass]

theorem mem_supertypes_of_interface (membership : id ∈ linkage.interfaces) :
    id ∈ linkage.supertypes :=
  List.mem_append_right _ membership

theorem Fits.mono {name : String} {file : ClassFile} (fits : world.Fits id name file linkage)
    (keeps : world.KeepsUsable later) : later.Fits id name file linkage := by
  have superLinked (superclass : ClassId) (above : linkage.superclass = some superclass) :=
    fits.linked superclass (mem_supertypes_of_superclass above)
  have interfacesLinked (interface : ClassId) (declared : interface ∈ linkage.interfaces) :=
    fits.linked interface (mem_supertypes_of_interface declared)
  constructor
  case linked =>
    intro supertype membership
    rw [keeps.linkage?_eq (fits.linked supertype membership)]
    exact fits.linked supertype membership
  case root => exact fits.root
  case superclass =>
    intro superclass above
    rw [keeps.isInterface_eq (superLinked superclass above)]
    exact fits.superclass superclass above
  case notFinal =>
    intro superclass above
    rw [keeps.isFinal_eq (superLinked superclass above)]
    exact fits.notFinal superclass above
  case isInterface =>
    intro interface declared
    rw [keeps.isInterface_eq (interfacesLinked interface declared)]
    exact fits.isInterface interface declared
  case interfaces => exact fits.interfaces
  case height =>
    have same : linkage.supertypes.map later.linkedHeight =
        linkage.supertypes.map world.linkedHeight :=
      List.map_congr_left fun supertype membership =>
        keeps.linkedHeight_eq (fits.linked supertype membership)
    rw [same]
    exact fits.height
  case methods =>
    have same : (linkage.interfaces.map fun interface =>
        (later.type interface).methods.virtual) = linkage.interfaces.map fun interface =>
          (world.type interface).methods.virtual :=
      List.map_congr_left fun interface declared => by
        rw [keeps.methods_eq (interfacesLinked interface declared)]
    rw [keeps.inheritedVirtual_eq superLinked, same]
    exact fits.methods
  case fields =>
    have same : (linkage.interfaces.map fun interface =>
        (later.type interface).fields.slots) = linkage.interfaces.map fun interface =>
          (world.type interface).fields.slots :=
      List.map_congr_left fun interface declared => by
        rw [keeps.fields_eq (interfacesLinked interface declared)]
    rw [keeps.inheritedFields_eq superLinked, same]
    exact fits.fields
  case attributes => exact fits.attributes
  case firstValues => exact fits.firstValues
  case allInterfaces =>
    intro name interface found
    rcases fits.allInterfaces name interface found with declared | inherited
    · exact .inl declared
    · obtain ⟨supertype, membership, inherited, linked, found⟩ := inherited
      exact .inr ⟨supertype, membership, inherited, keeps.linkage? linked, found⟩
  case covers =>
    intro supertype membership inherited linked
    rw [keeps.linkage?_eq (fits.linked supertype membership)] at linked
    exact fits.covers supertype membership inherited linked

/-! ### Changes that keep a world sound -/

/-- The same loaders are there, and they ask the same ones. -/
structure KeepsLoaders (world later : World) : Prop where
  size : later.loaders.size = world.loaders.size
  chain : ∀ loader, (later.loader loader).chain = (world.loader loader).chain

theorem KeepsLoaders.of_eq (loaders : later.loaders = world.loaders) :
    world.KeepsLoaders later where
  size := by rw [loaders]
  chain loader := by rw [World.loader, loaders, World.loader]

theorem KeepsLoaders.hasLoader_iff (keeps : world.KeepsLoaders later) {loader : LoaderId} :
    later.HasLoader loader ↔ world.HasLoader loader := by
  rw [HasLoader, keeps.size, HasLoader]

theorem KeepsLoaders.delegates_eq (keeps : world.KeepsLoaders later) (loader : LoaderId) :
    later.delegates loader = world.delegates loader := by
  rw [delegates, keeps.chain, delegates]

theorem findLoaded_eq_of_loaders (loaders : later.loaders = world.loaders) (loader : LoaderId)
    (name : String) : later.findLoaded loader name = world.findLoaded loader name := by
  rw [findLoaded, World.loader, loaders, ← World.loader, ← findLoaded]

theorem Sound.of_changes (sound : world.Sound) (keeps : world.KeepsUsable later)
    (loaders : world.KeepsLoaders later)
    (directories : ∀ loader name id, later.findLoaded loader name = some id →
      world.findLoaded loader name = some id ∨
        (later.type id).isUsable ∧ (later.type id).name = name)
    (titles : ∀ id, (later.type id).isUsable → (world.type id).isUsable ∨ (later.type id).Titled)
    (classes : ∀ id, id.index < later.classes.size →
      world.HasLoader (later.type id).loader ∧ (later.type id).Heads)
    (links : ∀ id file linkage, (later.type id).file? = some file →
      (later.type id).linkage? = some linkage →
        world.Fits id (later.type id).name file linkage)
    (objects : world.ObjectsShaped → later.ObjectsShaped) : later.Sound where
  bootstrap := loaders.hasLoader_iff.2 sound.bootstrap
  root := (loaders.chain .bootstrap).trans sound.root
  top loader present := by
    rw [loaders.delegates_eq]
    exact sound.top loader (loaders.hasLoader_iff.1 present)
  chains loader := by
    rw [loaders.chain]
    refine (sound.chains loader).imp_right ?_
    rintro ⟨parent, present, same⟩
    exact ⟨parent, loaders.hasLoader_iff.2 present, same.trans (loaders.delegates_eq parent).symm⟩
  directories loader name id found := by
    rcases directories loader name id found with known | now
    · exact keeps.isUsable (sound.directories loader name id known)
    · exact now.1
  names loader name id found := by
    rcases directories loader name id found with known | now
    · have lasts := congrArg Class.name (keeps id (sound.directories loader name id known))
      simp only [Class.lasting_name] at lasts
      rw [lasts, sound.names loader name id known]
    · exact now.2
  titles id usable := by
    rcases titles id usable with before | now
    · exact (sound.titles id before).of_lasting (keeps id before)
    · exact now
  homes id present := loaders.hasLoader_iff.2 (classes id present).1
  heads id present := (classes id present).2
  links id file linkage declared linked := (links id file linkage declared linked).mono keeps
  objects := objects sound.objects

/-- States, mirrors, resolved constants and static values do not matter. -/
theorem Sound.of_lasting (sound : world.Sound)
    (size : later.classes.size = world.classes.size)
    (lasting : ∀ id, (later.type id).lasting = (world.type id).lasting)
    (loaders : world.KeepsLoaders later)
    (directories : ∀ loader name id, later.findLoaded loader name = some id →
      world.findLoaded loader name = some id ∨
        (later.type id).isUsable ∧ (later.type id).name = name)
    (objects : world.ObjectsShaped → later.ObjectsShaped) : later.Sound := by
  refine sound.of_changes (fun id _ => lasting id) loaders directories ?_ ?_ ?_ objects
  · intro id usable
    rw [← Class.lasting_isUsable, lasting, Class.lasting_isUsable] at usable
    exact .inl usable
  · intro id present
    rw [size] at present
    have home := congrArg Class.loader (lasting id)
    simp only [Class.lasting_loader] at home
    rw [home]
    exact ⟨sound.homes id present, (sound.heads id present).of_lasting (lasting id)⟩
  · intro id file linkage declared linked
    have name := congrArg Class.name (lasting id)
    rw [← Class.lasting_file?, lasting, Class.lasting_file?] at declared
    rw [← Class.lasting_linkage?, lasting, Class.lasting_linkage?] at linked
    simp only [Class.lasting_name] at name
    rw [name]
    exact sound.links id file linkage declared linked

/-- A new class leaves those that are there alone. -/
theorem keepsUsable_addType (world : World) (type : Class) :
    world.KeepsUsable (world.addType type).2 := by
  intro id usable
  rw [type_addType, if_neg (Nat.ne_of_lt (present_of_isUsable usable))]

/-- A class of a loader comes in without a linkage. -/
theorem Sound.addType (sound : world.Sound) {type : Class} (unlinked : type.linkage? = none)
    (home : world.HasLoader type.loader) (heads : type.Heads)
    (titled : type.isArray → type.Titled) : (world.addType type).2.Sound := by
  have keeps := keepsUsable_addType world type
  refine sound.of_changes keeps (.of_eq rfl) (fun _ _ _ => .inl) ?_ ?_ ?_
    fun shaped => keeps.shaped shaped rfl
  · intro id usable
    rw [type_addType] at usable ⊢
    split at usable
    next new =>
      rw [if_pos new]
      have isArray : type.isArray := by simpa [Class.isUsable, unlinked] using usable
      exact .inr (titled isArray)
    next => exact .inl usable
  · intro id present
    rw [type_addType]
    split
    next => exact ⟨home, heads⟩
    next old =>
      rw [size_addType] at present
      have before : id.index < world.classes.size := by omega
      exact ⟨sound.homes id before, sound.heads id before⟩
  · intro id file linkage declared linked
    rw [type_addType] at declared linked ⊢
    split at linked
    next =>
      rw [unlinked] at linked
      cases linked
    next old =>
      rw [if_neg old] at declared ⊢
      exact sound.links id file linkage declared linked

/-- A class that a file declares comes in. -/
theorem Sound.addDeclared (sound : world.Sound) {type : Class} {file : ClassFile}
    (kind : type.kind = .declared { file }) (home : world.HasLoader type.loader)
    (heads : type.Heads) : (world.addType type).2.Sound := by
  refine sound.addType (Class.linkage?_of_declared kind) home heads fun isArray => ?_
  simp [Class.isArray, Class.declared?, kind] at isArray

theorem type_attachLinkage {body : DeclaredClass} (linkage : Linkage) (static : Array Value)
    (present : id.index < world.classes.size) (kind : (world.type id).kind = .declared body) :
    (world.attachLinkage id linkage static).type id =
      { world.type id with
        kind := .declared { body with linkage := some linkage, pool := some {}, static } } := by
  rw [attachLinkage, modifyDeclared, type_modifyType_same _ present, kind]

theorem type_attachLinkage_other {static : Array Value} (distinct : other ≠ id) :
    (world.attachLinkage id linkage static).type other = world.type other := by
  rw [attachLinkage, modifyDeclared, type_modifyType_other _ _ distinct.symm]

@[simp] theorem size_attachLinkage (world : World) (id : ClassId) (linkage : Linkage)
    (static : Array Value) :
    (world.attachLinkage id linkage static).classes.size = world.classes.size :=
  size_modifyType _ _ _

/-- A class without a linkage is not usable, so all that are last. -/
theorem keepsUsable_attachLinkage {body : DeclaredClass} {static : Array Value}
    (kind : (world.type id).kind = .declared body) (unlinked : body.linkage = none) :
    world.KeepsUsable (world.attachLinkage id linkage static) := by
  have declared := Class.declared?_eq_some.2 kind
  intro other usable
  have distinct : other ≠ id := by
    intro same
    rw [same] at usable
    simp [Class.isUsable, Class.isArray, Class.linkage?, declared, unlinked] at usable
  rw [type_attachLinkage_other distinct]

/-- What linking gave is attached to a class without a linkage. -/
theorem Sound.attachLinkage (sound : world.Sound) {body : DeclaredClass} {static : Array Value}
    (present : id.index < world.classes.size) (kind : (world.type id).kind = .declared body)
    (unlinked : body.linkage = none) (fits : world.Fits id (world.type id).name body.file linkage)
    (plain : (world.type id).name.toList.head? ≠ some '[') :
    (world.attachLinkage id linkage static).Sound := by
  have keeps : world.KeepsUsable (world.attachLinkage id linkage static) :=
    keepsUsable_attachLinkage kind unlinked
  refine sound.of_changes keeps (.of_eq rfl) (fun _ _ _ => .inl) ?_ ?_ ?_
    fun shaped => keeps.shaped shaped rfl
  · intro other usable
    by_cases same : other = id
    · subst same
      rw [type_attachLinkage _ _ present kind]
      exact .inr ⟨fun isArray => (by cases isArray), fun _ => plain⟩
    · rw [type_attachLinkage_other same] at usable
      exact .inl usable
  · intro other here
    rw [size_attachLinkage] at here
    by_cases same : other = id
    · subst same
      have heads := sound.heads other present
      rw [type_attachLinkage _ _ present kind]
      refine ⟨sound.homes other present, fun file declared => ?_⟩
      cases declared
      apply heads
      rw [Class.file?, Class.declared?_eq_some.2 kind]
      rfl
    · rw [type_attachLinkage_other same]
      exact ⟨sound.homes other here, sound.heads other here⟩
  · intro other file attached declaredNow linked
    by_cases same : other = id
    · subst same
      rw [type_attachLinkage _ _ present kind] at declaredNow linked ⊢
      cases declaredNow
      cases linked
      exact fits
    · rw [type_attachLinkage_other same] at *
      exact sound.links other file attached declaredNow linked

/-! ### Methods of linked classes -/

/-- The file of a class declares the method. -/
def Declares (world : World) (id : ClassId) (method : Method) : Prop :=
  ∃ file, (world.type id).file? = some file ∧ ∃ member ∈ file.methods,
    Method.ofMember file id (world.type id).name member = .ok method

theorem Declares.owner {method : Method} (declares : world.Declares id method) :
    method.owner = id := by
  obtain ⟨file, _, member, _, read⟩ := declares
  exact (Method.ofMember_owner read).1

theorem Sound.fits (sound : world.Sound) (linked : (world.type id).linkage? = some linkage) :
    ∃ file, (world.type id).file? = some file ∧
      world.Fits id (world.type id).name file linkage := by
  cases declared : (world.type id).declared? with
  | none => simp [Class.linkage?, declared] at linked
  | some body =>
      have file : (world.type id).file? = some body.file := by
        rw [Class.file?, declared]
        rfl
      exact ⟨body.file, file, sound.links id body.file linkage file linked⟩

theorem methods_of_linkage (linked : (world.type id).linkage? = some linkage) :
    (world.type id).methods = linkage.methods := by
  rw [Class.methods, linked]
  rfl

/-- A linked class knows by key the methods that its file declares. -/
theorem Sound.find?_declared (sound : world.Sound)
    (linked : (world.type id).linkage? = some linkage) (key : String) (method : Method) :
    (world.type id).methods.declared.find? key = some method ↔
      method.key = key ∧ world.Declares id method := by
  obtain ⟨file, declared, fits⟩ := sound.fits linked
  rw [methods_of_linkage linked, MethodTables.find?_declared_build fits.methods]
  simp [Declares, declared]

/-- How the table for dispatch of a linked class comes about from those of its supertypes. -/
theorem Sound.find?_virtual (sound : world.Sound)
    (linked : (world.type id).linkage? = some linkage) (key : String) :
    (world.type id).methods.virtual.find? key =
      (((world.type id).methods.declared.find? key).filter Method.isVirtual).or
        (((world.inheritedVirtual linkage.superclass).find? key).or
          (linkage.interfaces.findSome? fun interface =>
            (world.type interface).methods.virtual.find? key)) := by
  obtain ⟨file, _, fits⟩ := sound.fits linked
  rw [methods_of_linkage linked, MethodTables.find?_virtual_build fits.methods,
    List.findSome?_map]
  rfl

end World
end JavaMachine
