import JavaMachine.Proofs.Delegation
import JavaMachine.Proofs.Renaming
import Mathlib.Data.Countable.Basic
import Mathlib.Logic.Equiv.List

/-!
# Portraits

What linking gives a class, told without identities: classes are named by their titles, which are
their loaders together with their names. In worlds whose loaders ask the same ones and have the same
files, classes with one title look the same, whatever else has been loaded into these worlds.
-/

namespace JavaMachine

/-- Lists whose members correspond are mapped to the same list. -/
theorem map_eq_map_of_tags {α β γ δ : Type} {first : List α} {second : List β} {tag : α → γ}
    {tagToo : β → γ} {read : α → δ} {readToo : β → δ}
    (same : second.map tagToo = first.map tag)
    (agree : ∀ item ∈ first, ∀ other ∈ second, tagToo other = tag item →
      readToo other = read item) : second.map readToo = first.map read := by
  induction first generalizing second with
  | nil =>
      rw [List.map_nil, List.map_eq_nil_iff] at same
      rw [same]
      rfl
  | cons item rest inductionHypothesis =>
      cases second with
      | nil => cases same
      | cons other others =>
          obtain ⟨head, tail⟩ := List.cons.inj same
          rw [List.map_cons, List.map_cons,
            agree item List.mem_cons_self other List.mem_cons_self head,
            inductionHypothesis tail fun item membership other membershipToo =>
              agree item (List.mem_cons_of_mem _ membership) other
                (List.mem_cons_of_mem _ membershipToo)]

/-- The loader of a class together with its name. -/
abbrev Title := LoaderId × String

/-- What linking gives a class, with classes told by their titles. -/
structure Portrait where
  title : Title
  file? : Option ClassFile
  superclass? : Option Title
  interfaces : List Title
  interface? : String → Option Title
  component? : Option Title
  dimension : Nat
  declared : Table String (Title × Method)
  virtual : Table String (Title × Method)
  nonvirtual : Table String (Title × Method)
  staticMethods : Table String (Title × Method)
  slots : List (Title × FieldSlot)
  staticFields : Table String (Title × FieldSlot)

namespace World

/-- How a class is told from others that have been entered. -/
def title (world : World) (id : ClassId) : Title := ((world.type id).loader, (world.type id).name)

/-- A method with the title of its owner in place of its identity. -/
def methodTitled (world : World) (method : Method) : Title × Method :=
  (world.title method.owner, method.rename fun _ => default)

/-- The slot of a field with the title of its owner in place of its identity. -/
def slotTitled (world : World) (slot : FieldSlot) : Title × FieldSlot :=
  (world.title slot.field.owner, slot.rename fun _ => default)

def portrait (world : World) (id : ClassId) : Portrait :=
  let type := world.type id
  { title := world.title id
    file? := type.file?
    superclass? := type.superclass?.map world.title
    interfaces := type.interfaces.map world.title
    interface? := fun name => (type.interface? name).map world.title
    component? := type.component?.map world.title
    dimension := type.dimension
    declared := type.methods.declared.mapValues world.methodTitled
    virtual := type.methods.virtual.mapValues world.methodTitled
    nonvirtual := type.methods.nonvirtual.mapValues world.methodTitled
    staticMethods := type.methods.static.mapValues world.methodTitled
    slots := type.fields.slots.map world.slotTitled
    staticFields := type.fields.static.mapValues world.slotTitled }

variable {world other : World} {loader : LoaderId} {name : String} {id own : ClassId}
variable {file : ClassFile} {linkage linkageToo : Linkage}

/-! ### Worlds with the same loaders -/

/-- Two sound and regular worlds in which the loaders that both have ask the same ones and have the
same files. Either may have loaders besides. -/
structure Comparable (world other : World) : Prop where
  sound : world.Sound
  regular : world.Regular
  soundToo : other.Sound
  regularToo : other.Regular
  shares : ∀ loader, world.HasLoader loader → other.HasLoader loader → world.Shares other loader

namespace Comparable

theorem refl (sound : world.Sound) (regular : world.Regular) : world.Comparable world :=
  ⟨sound, regular, sound, regular, fun loader _ _ => (Alike.refl world).shares loader⟩

theorem symm (comparable : world.Comparable other) : other.Comparable world where
  sound := comparable.soundToo
  regular := comparable.regularToo
  soundToo := comparable.sound
  regularToo := comparable.regular
  shares loader present presentToo := (comparable.shares loader presentToo present).symm

section Later

variable {later : World} (comparable : world.Comparable other)
include comparable

theorem of_alike (sound : later.Sound) (regular : later.Regular) (alike : other.Alike later)
    (same : ∀ {loader}, later.HasLoader loader ↔ other.HasLoader loader) :
    world.Comparable later where
  sound := comparable.sound
  regular := comparable.regular
  soundToo := sound
  regularToo := regular
  shares loader present presentToo :=
    (comparable.shares loader present (same.1 presentToo)).of_alike alike

theorem of_settles (sound : later.Sound) (regular : later.Regular) (settles : other.Settles later) :
    world.Comparable later :=
  comparable.of_alike sound regular settles.alike settles.hasLoader_iff

theorem mono (evolves : other.Evolves later) : world.Comparable later :=
  comparable.of_settles evolves.sound (evolves.regular comparable.regularToo) evolves.settles

theorem starting (loader : LoaderId) (name : String) :
    world.Comparable (other.starting loader name) :=
  comparable.of_alike (comparable.soundToo.starting loader name)
    (comparable.regularToo.starting comparable.soundToo loader name)
    (alike_starting other loader name) (keepsLoaders_modifyDirectory other loader _).hasLoader_iff

end Later

theorem bootstrap (comparable : world.Comparable other) : world.Shares other .bootstrap :=
  comparable.shares .bootstrap comparable.sound.bootstrap comparable.soundToo.bootstrap

/-- A loader gets a name by one file. -/
theorem topmost_unique (comparable : world.Comparable other) {definer definerToo : LoaderId}
    {fileToo : ClassFile} (topmost : world.Topmost loader name definer file)
    (topmostToo : other.Topmost loader name definerToo fileToo) :
    definerToo = definer ∧ fileToo = file :=
  (topmost.of_shares comparable.sound
    (comparable.shares loader topmost.hasLoader topmostToo.hasLoader)).unique comparable.soundToo
      topmostToo

end Comparable

/-- The names of array classes begin with a bracket. -/
theorem Regular.isArray_iff (regular : world.Regular) (registered : world.Registered id) :
    (world.type id).isArray ↔ (world.type id).name.toList.head? = some '[' := by
  refine ⟨fun isArray => ?_, regular.isArray_of_findLoaded registered⟩
  by_contra plain
  exact (regular.entries _ _ _ registered).not_isArray plain isArray

/-- Classes with one title have been entered in both worlds. -/
structure Twins (world other : World) (id own : ClassId) : Prop where
  registered : world.Registered id
  registeredToo : other.Registered own
  title : other.title own = world.title id

namespace Comparable

variable (comparable : world.Comparable other)
include comparable

/-- A loader sees classes with one title under one plain name. -/
theorem twins_of_sees (sees : world.Sees loader id) (declared : ¬ (world.type id).isArray)
    (seesToo : other.Sees loader own) (same : (other.type own).name = (world.type id).name) :
    world.Twins other id own := by
  have plain := (comparable.regular.entries _ _ _ sees.registered).placed.plain declared
  obtain ⟨_, topmost, _⟩ :=
    comparable.regular.topmost_of_findLoaded plain sees.among sees.registered
  have registered := seesToo.registered
  rw [Registered, same] at registered
  obtain ⟨_, topmostToo, _⟩ :=
    comparable.regularToo.topmost_of_findLoaded plain seesToo.among registered
  have definer := (comparable.topmost_unique topmost topmostToo).1
  exact ⟨sees.registered, seesToo.registered, Prod.ext definer same⟩

end Comparable

namespace Twins

variable (comparable : world.Comparable other) (twins : world.Twins other id own)

theorem symm (twins : world.Twins other id own) : other.Twins world own id :=
  ⟨twins.registeredToo, twins.registered, twins.title.symm⟩

theorem loader_eq (twins : world.Twins other id own) :
    (other.type own).loader = (world.type id).loader :=
  congrArg Prod.fst twins.title

theorem name_eq (twins : world.Twins other id own) :
    (other.type own).name = (world.type id).name :=
  congrArg Prod.snd twins.title

include comparable twins

theorem isArray_eq : (other.type own).isArray = (world.type id).isArray := by
  rw [Bool.eq_iff_iff, comparable.regularToo.isArray_iff twins.registeredToo, twins.name_eq,
    comparable.regular.isArray_iff twins.registered]

/-- Classes with one title are declared by one file. -/
theorem file?_eq (linked : (world.type id).linkage? = some linkage) :
    (other.type own).file? = (world.type id).file? := by
  have declared := Class.not_isArray_of_linkage? linked
  have plain := (comparable.regular.entries _ _ _ twins.registered).placed.plain declared
  obtain ⟨_, topmost, isFile⟩ :=
    comparable.regular.topmost_of_findLoaded plain List.mem_cons_self twins.registered
  have registered := twins.registeredToo
  rw [Registered, twins.name_eq, twins.loader_eq] at registered
  obtain ⟨_, topmostToo, isFileToo⟩ :=
    comparable.regularToo.topmost_of_findLoaded plain List.mem_cons_self registered
  obtain ⟨_, rfl⟩ := comparable.topmost_unique topmost topmostToo
  rw [isFile, isFileToo]

/-- What is known of two linked classes with one title. -/
theorem exists_linkage (linked : (world.type id).linkage? = some linkage) :
    ∃ file linkageToo, (other.type own).linkage? = some linkageToo ∧
      (other.type own).file? = some file ∧
        world.Fits id (world.type id).name file linkage ∧
        other.Fits own (world.type id).name file linkageToo ∧
        world.Names (world.type id).loader file linkage ∧
        other.Names (world.type id).loader file linkageToo := by
  have declaredToo : ¬ (other.type own).isArray := by
    rw [twins.isArray_eq comparable]
    exact Class.not_isArray_of_linkage? linked
  have usable := comparable.soundToo.directories _ _ _ twins.registeredToo
  obtain ⟨linkageToo, linkedToo⟩ :=
    Option.isSome_iff_exists.1 (linkage?_of_isUsable usable declaredToo)
  obtain ⟨file, isFile, fits⟩ := comparable.sound.fits linked
  have isFileToo := (twins.file?_eq comparable linked).trans isFile
  have fitsToo := comparable.soundToo.links own file linkageToo isFileToo linkedToo
  have names := comparable.regular.links id file linkage isFile linked
  have namesToo := comparable.regularToo.links own file linkageToo isFileToo linkedToo
  rw [twins.name_eq] at fitsToo
  rw [twins.loader_eq] at namesToo
  exact ⟨file, linkageToo, linkedToo, isFileToo, fits, fitsToo, names, namesToo⟩

theorem flags_eq (linked : (world.type id).linkage? = some linkage) :
    (other.type own).flags = (world.type id).flags := by
  obtain ⟨file, linkageToo, linkedToo, isFileToo, _⟩ := twins.exists_linkage comparable linked
  have isFile := (twins.file?_eq comparable linked).symm.trans isFileToo
  have heads {world : World} {id : ClassId} {linkage : Linkage} (sound : world.Sound)
      (linked : (world.type id).linkage? = some linkage)
      (isFile : (world.type id).file? = some file) : file.flags = (world.type id).flags := by
    have usable := Class.isUsable_of_linkage? (Option.isSome_of_eq_some linked)
    exact (sound.heads id (present_of_isUsable usable) file isFile).2
  rw [← heads comparable.soundToo linkedToo isFileToo, heads comparable.sound linked isFile]

end Twins

/-- Two classes have the same methods and fields if their owners are called as given. -/
structure SameTables (owners ownersToo : ClassId → ClassId) (type typeToo : Class) : Prop where
  methods : typeToo.methods.rename ownersToo = type.methods.rename owners
  fields : typeToo.fields.rename ownersToo = type.fields.rename owners

/-! ### Supertypes -/

section Supertypes

variable (comparable : world.Comparable other)
variable (linked : ∀ supertype ∈ linkage.supertypes, (world.type supertype).linkage?.isSome)
variable (root : linkageToo.superclass = none ↔ linkage.superclass = none)
variable (names : world.Names loader file linkage) (namesToo : other.Names loader file linkageToo)
include comparable linked root names namesToo

omit root in
theorem twins_of_supertypes {supertype supertypeToo : ClassId}
    (above : supertype ∈ linkage.supertypes) (aboveToo : supertypeToo ∈ linkageToo.supertypes)
    (same : (other.type supertypeToo).name = (world.type supertype).name) :
    world.Twins other supertype supertypeToo := by
  obtain ⟨_, linked⟩ := Option.isSome_iff_exists.1 (linked supertype above)
  exact comparable.twins_of_sees (names.supertypes _ above) (Class.not_isArray_of_linkage? linked)
    (namesToo.supertypes _ aboveToo) same

theorem title_superclass_eq :
    linkageToo.superclass.map other.title = linkage.superclass.map world.title := by
  cases above : linkage.superclass with
  | none =>
      rw [root.2 above]
      rfl
  | some superclass =>
      cases aboveToo : linkageToo.superclass with
      | none =>
          rw [root.1 aboveToo] at above
          cases above
      | some superclassToo =>
          have same := (namesToo.superclass _ aboveToo).symm.trans (names.superclass _ above)
          have twins := twins_of_supertypes comparable linked names namesToo
            (mem_supertypes_of_superclass above) (mem_supertypes_of_superclass aboveToo)
            (Option.some_inj.1 same)
          rw [Option.map_some, Option.map_some, twins.title]

omit root in
theorem title_interfaces_eq :
    linkageToo.interfaces.map other.title = linkage.interfaces.map world.title := by
  refine map_eq_map_of_tags (namesToo.declared.symm.trans names.declared) ?_
  intro interface declared interfaceToo declaredToo same
  exact (twins_of_supertypes comparable linked names namesToo
    (mem_supertypes_of_interface declared) (mem_supertypes_of_interface declaredToo)
    (Option.some_inj.1 same)).title

/-- A supertype in one world has a counterpart in the other. -/
theorem exists_title_eq {supertype : ClassId} (above : supertype ∈ linkage.supertypes) :
    ∃ supertypeToo ∈ linkageToo.supertypes, other.title supertypeToo = world.title supertype := by
  have superclass := title_superclass_eq comparable linked root names namesToo
  have interfaces := title_interfaces_eq comparable linked names namesToo
  rcases List.mem_append.1 above with isSuperclass | declared
  · rw [Option.mem_toList.1 isSuperclass] at superclass
    obtain ⟨superclassToo, isSuperclassToo, same⟩ := Option.map_eq_some_iff.1 superclass
    exact ⟨superclassToo, mem_supertypes_of_superclass isSuperclassToo, same⟩
  · have among : world.title supertype ∈ linkage.interfaces.map world.title :=
      List.mem_map_of_mem declared
    rw [← interfaces] at among
    obtain ⟨interfaceToo, declaredToo, same⟩ := List.mem_map.1 among
    exact ⟨interfaceToo, mem_supertypes_of_interface declaredToo, same⟩

/-! ### Tables and layouts -/

variable {owners ownersToo : ClassId → ClassId} (owner : ownersToo own = owners id)
variable (same : ∀ supertype ∈ linkage.supertypes, ∀ supertypeToo ∈ linkageToo.supertypes,
  other.title supertypeToo = world.title supertype →
    SameTables owners ownersToo (world.type supertype) (other.type supertypeToo))
include same

omit comparable linked root names namesToo in
theorem sameTables_of_superclass
    (titles : linkageToo.superclass.map other.title = linkage.superclass.map world.title)
    {superclass : ClassId} (above : linkage.superclass = some superclass) :
    ∃ superclassToo, linkageToo.superclass = some superclassToo ∧
      SameTables owners ownersToo (world.type superclass) (other.type superclassToo) := by
  rw [above] at titles
  obtain ⟨superclassToo, aboveToo, title⟩ := Option.map_eq_some_iff.1 titles
  exact ⟨superclassToo, aboveToo, same _ (mem_supertypes_of_superclass above) _
    (mem_supertypes_of_superclass aboveToo) title⟩

include owner

/-- Building the method tables comes to the same in both worlds. -/
theorem build_rename_eq (name : String) :
    (MethodTables.build file own name (other.inheritedVirtual linkageToo.superclass)
        (linkageToo.interfaces.map fun interface => (other.type interface).methods.virtual)).map
          (MethodTables.rename ownersToo) =
      (MethodTables.build file id name (world.inheritedVirtual linkage.superclass)
        (linkage.interfaces.map fun interface => (world.type interface).methods.virtual)).map
          (MethodTables.rename owners) := by
  have superclass : (other.inheritedVirtual linkageToo.superclass).mapValues
      (Method.rename ownersToo) =
        (world.inheritedVirtual linkage.superclass).mapValues (Method.rename owners) := by
    have titles := title_superclass_eq comparable linked root names namesToo
    cases above : linkage.superclass with
    | none =>
        rw [root.2 above]
        rfl
    | some superclass =>
        obtain ⟨_, aboveToo, tables⟩ := sameTables_of_superclass same titles above
        rw [aboveToo]
        exact congrArg MethodTables.virtual tables.methods
  have interfaces : linkageToo.interfaces.map (Table.mapValues (Method.rename ownersToo) ∘
      fun interface => (other.type interface).methods.virtual) =
        linkage.interfaces.map (Table.mapValues (Method.rename owners) ∘
          fun interface => (world.type interface).methods.virtual) := by
    refine map_eq_map_of_tags (title_interfaces_eq comparable linked names namesToo) ?_
    intro interface declared interfaceToo declaredToo title
    exact congrArg MethodTables.virtual (same _ (mem_supertypes_of_interface declared) _
      (mem_supertypes_of_interface declaredToo) title).methods
  rw [← MethodTables.build_rename, ← MethodTables.build_rename, List.map_map, List.map_map,
    superclass, interfaces, owner]

/-- Laying out the fields comes to the same in both worlds. -/
theorem addAll_rename_eq (name : String) :
    (FieldLayout.addAll file own name file.fields
        (.inherit (other.inheritedFields linkageToo.superclass).slots
          (linkageToo.interfaces.map fun interface => (other.type interface).fields.slots))).map
            (FieldLayout.rename ownersToo) =
      (FieldLayout.addAll file id name file.fields
        (.inherit (world.inheritedFields linkage.superclass).slots
          (linkage.interfaces.map fun interface => (world.type interface).fields.slots))).map
            (FieldLayout.rename owners) := by
  have superclass : (other.inheritedFields linkageToo.superclass).slots.map
      (FieldSlot.rename ownersToo) =
        (world.inheritedFields linkage.superclass).slots.map (FieldSlot.rename owners) := by
    have titles := title_superclass_eq comparable linked root names namesToo
    cases above : linkage.superclass with
    | none =>
        rw [root.2 above]
        rfl
    | some superclass =>
        obtain ⟨_, aboveToo, tables⟩ := sameTables_of_superclass same titles above
        rw [aboveToo]
        exact congrArg FieldLayout.slots tables.fields
  have interfaces : linkageToo.interfaces.map (List.map (FieldSlot.rename ownersToo) ∘
      fun interface => (other.type interface).fields.slots) =
        linkage.interfaces.map (List.map (FieldSlot.rename owners) ∘
          fun interface => (world.type interface).fields.slots) := by
    refine map_eq_map_of_tags (title_interfaces_eq comparable linked names namesToo) ?_
    intro interface declared interfaceToo declaredToo title
    exact congrArg FieldLayout.slots (same _ (mem_supertypes_of_interface declared) _
      (mem_supertypes_of_interface declaredToo) title).fields
  rw [← FieldLayout.addAll_rename, ← FieldLayout.addAll_rename, ← FieldLayout.inherit_rename,
    ← FieldLayout.inherit_rename, List.map_map, List.map_map, superclass, interfaces, owner]

end Supertypes

/-- However owners are called, the tables and layouts of classes with one title are the same if
owners with one title are called the same. -/
theorem Twins.sameTables {owners ownersToo : ClassId → ClassId}
    (comparable : world.Comparable other)
    (agree : ∀ id own, other.title own = world.title id → ownersToo own = owners id)
    (founded : world.Founded id) (twins : world.Twins other id own) :
    SameTables owners ownersToo (world.type id) (other.type own) := by
  induction founded generalizing own with
  | @intro id _ linkage _ linked _ _ _ above =>
      obtain ⟨file, linkageToo, linkedToo, _, fits, fitsToo, names, namesToo⟩ :=
        twins.exists_linkage comparable linked
      have same (supertype : ClassId) (isAbove : supertype ∈ linkage.supertypes)
          (supertypeToo : ClassId) (isAboveToo : supertypeToo ∈ linkageToo.supertypes)
          (title : other.title supertypeToo = world.title supertype) :=
        above supertype isAbove ⟨(names.supertypes _ isAbove).registered,
          (namesToo.supertypes _ isAboveToo).registered, title⟩
      have root := fitsToo.root.trans fits.root.symm
      have owner := agree id own twins.title
      constructor
      · have methods := build_rename_eq comparable fits.linked root names namesToo owner same
          (world.type id).name
        rw [fits.methods, fitsToo.methods] at methods
        rw [methods_of_linkage linked, methods_of_linkage linkedToo]
        exact Except.ok.inj methods
      · have fields := addAll_rename_eq comparable fits.linked root names namesToo owner same
          (world.type id).name
        rw [fits.fields, fitsToo.fields] at fields
        rw [fields_of_linkage? linked, fields_of_linkage? linkedToo]
        exact Except.ok.inj fields

/-! ### Interfaces by name -/

theorem Regular.founded_of_registered (regular : world.Regular) (registered : world.Registered id)
    (declared : ¬ (world.type id).isArray) : world.Founded id := by
  cases (regular.entries _ _ _ registered).placed with
  | declared _ _ _ _ _ founded => exact founded
  | primitiveArray kind => exact absurd (Class.isArray_of_primitive kind) declared
  | referenceArray kind => exact absurd (Class.isArray_of_reference kind) declared

theorem Twins.isSome_interface? (comparable : world.Comparable other) (founded : world.Founded id)
    (twins : world.Twins other id own) (known : ((world.type id).interface? name).isSome) :
    ((other.type own).interface? name).isSome := by
  induction founded generalizing own with
  | @intro id _ linkage _ linked _ _ _ above =>
      obtain ⟨file, linkageToo, linkedToo, _, fits, fitsToo, names, namesToo⟩ :=
        twins.exists_linkage comparable linked
      obtain ⟨interface, known⟩ := Option.isSome_iff_exists.1 known
      rw [Class.interface?, linked, Option.bind_some] at known
      rw [Class.interface?, linkedToo, Option.bind_some]
      rcases fits.allInterfaces name interface known with declared | inherited
      · have among : world.title interface ∈ linkage.interfaces.map world.title :=
          List.mem_map_of_mem declared
        rw [← title_interfaces_eq comparable fits.linked names namesToo] at among
        obtain ⟨interfaceToo, declaredToo, same⟩ := List.mem_map.1 among
        have named : (other.type interfaceToo).name = (world.type interface).name :=
          congrArg Prod.snd same
        rw [← (names.allInterfaces name interface known).1, ← named]
        exact namesToo.interfaces interfaceToo declaredToo
      · obtain ⟨supertype, isAbove, inherited, linkedAbove, known⟩ := inherited
        obtain ⟨supertypeToo, isAboveToo, same⟩ :=
          exists_title_eq comparable fits.linked (fitsToo.root.trans fits.root.symm) names namesToo
            isAbove
        have knownAbove : ((world.type supertype).interface? name).isSome := by
          rw [Class.interface?, linkedAbove, Option.bind_some, known]
          rfl
        have knownToo := above supertype isAbove ⟨(names.supertypes _ isAbove).registered,
          (namesToo.supertypes _ isAboveToo).registered, same⟩ knownAbove
        obtain ⟨inheritedToo, linkedAboveToo⟩ :=
          Option.isSome_iff_exists.1 (fitsToo.linked supertypeToo isAboveToo)
        rw [Class.interface?, linkedAboveToo, Option.bind_some] at knownToo
        exact fitsToo.covers supertypeToo isAboveToo inheritedToo linkedAboveToo name knownToo

theorem Twins.title_interface?_eq (comparable : world.Comparable other)
    (linked : (world.type id).linkage? = some linkage) (twins : world.Twins other id own)
    (name : String) :
    ((other.type own).interface? name).map other.title =
      ((world.type id).interface? name).map world.title := by
  obtain ⟨file, linkageToo, linkedToo, _, _, _, names, namesToo⟩ :=
    twins.exists_linkage comparable linked
  have founded := comparable.regular.founded_of_registered twins.registered
    (Class.not_isArray_of_linkage? linked)
  have foundedToo := comparable.regularToo.founded_of_registered twins.registeredToo
    (Class.not_isArray_of_linkage? linkedToo)
  cases known : (world.type id).interface? name with
  | none =>
      cases knownToo : (other.type own).interface? name with
      | none => rfl
      | some interfaceToo =>
          have impossible := twins.symm.isSome_interface? comparable.symm foundedToo
            (Option.isSome_of_eq_some knownToo)
          rw [known] at impossible
          cases impossible
  | some interface =>
      obtain ⟨interfaceToo, knownToo⟩ := Option.isSome_iff_exists.1
        (twins.isSome_interface? comparable founded (Option.isSome_of_eq_some known))
      obtain ⟨_, linkedAbove⟩ := comparable.sound.reaches_linked ⟨linkage, linked⟩
        (comparable.sound.reaches_of_interface? known)
      rw [knownToo]
      rw [Class.interface?, linked, Option.bind_some] at known
      rw [Class.interface?, linkedToo, Option.bind_some] at knownToo
      obtain ⟨named, sees⟩ := names.allInterfaces name interface known
      obtain ⟨namedToo, seesToo⟩ := namesToo.allInterfaces name interfaceToo knownToo
      have above := comparable.twins_of_sees sees (Class.not_isArray_of_linkage? linkedAbove)
        seesToo (namedToo.trans named.symm)
      rw [Option.map_some, Option.map_some, above.title]

/-! ### Portraits -/

theorem Class.component?_of_linkage {type : Class} {linkage : Linkage}
    (linked : type.linkage? = some linkage) : type.component? = none := by
  obtain ⟨body, declared, _⟩ := Option.bind_eq_some_iff.1 linked
  rw [Class.component?, Class.declared?_eq_some.1 declared]

/-- There are more identities than titles. -/
theorem exists_code : ∃ code : Title → ClassId, Function.Injective code := by
  have chars : Countable Char := by
    have injective : Function.Injective Char.toNat := fun one other same =>
      Char.ext (UInt32.toNat_inj.1 same)
    exact injective.countable
  have texts : Countable String :=
    Function.Injective.countable fun one other same => String.toList_inj.1 same
  have loaders : Countable LoaderId := by
    have injective : Function.Injective LoaderId.index := fun ⟨_⟩ ⟨_⟩ same => congrArg _ same
    exact injective.countable
  obtain ⟨code, injective⟩ := exists_injective_nat Title
  exact ⟨fun title => ⟨code title⟩, fun _ _ same => injective (ClassId.mk.inj same)⟩

section Code

variable {code : Title → ClassId} (injective : Function.Injective code)
include injective

/-- A title can be read off an identity that stands for it. -/
theorem methodTitled_eq (world : World) (method : Method) :
    (Function.invFun code (method.rename (code ∘ world.title)).owner,
      (method.rename (code ∘ world.title)).rename fun _ => default) = world.methodTitled method :=
  Prod.ext (Function.leftInverse_invFun injective _) rfl

theorem slotTitled_eq (world : World) (slot : FieldSlot) :
    (Function.invFun code (slot.rename (code ∘ world.title)).field.owner,
      (slot.rename (code ∘ world.title)).rename fun _ => default) = world.slotTitled slot :=
  Prod.ext (Function.leftInverse_invFun injective _) rfl

variable {type typeToo : Class}
variable (tables : SameTables (code ∘ world.title) (code ∘ other.title) type typeToo)
include tables

theorem SameTables.methodTitled {read : MethodTables → Table String Method}
    (natural : ∀ owners tables, read (MethodTables.rename owners tables) =
      (read tables).mapValues (Method.rename owners)) :
    (read typeToo.methods).mapValues other.methodTitled =
      (read type.methods).mapValues world.methodTitled := by
  have same := congrArg (fun tables => (read tables).mapValues fun method =>
    (Function.invFun code method.owner, method.rename fun _ => default)) tables.methods
  simp only [natural, Table.mapValues_mapValues, methodTitled_eq injective] at same
  exact same

theorem SameTables.slotTitled : typeToo.fields.slots.map other.slotTitled =
      type.fields.slots.map world.slotTitled ∧
    typeToo.fields.static.mapValues other.slotTitled =
      type.fields.static.mapValues world.slotTitled := by
  have titled (world : World) : ((fun slot : FieldSlot =>
      (Function.invFun code slot.field.owner, slot.rename fun _ => default)) ∘
        FieldSlot.rename (code ∘ world.title)) = world.slotTitled :=
    funext (slotTitled_eq injective world)
  constructor
  · have same := congrArg (fun layout => layout.slots.map fun slot =>
      (Function.invFun code slot.field.owner, slot.rename fun _ => default)) tables.fields
    simpa only [FieldLayout.rename, List.map_map, titled] using same
  · have same := congrArg (fun layout => layout.static.mapValues fun slot =>
      (Function.invFun code slot.field.owner, slot.rename fun _ => default)) tables.fields
    simpa only [FieldLayout.rename, Table.mapValues_mapValues, slotTitled_eq injective] using same

end Code

theorem Twins.portrait_eq_of_linked (comparable : world.Comparable other)
    (linked : (world.type id).linkage? = some linkage) (twins : world.Twins other id own) :
    other.portrait own = world.portrait id := by
  obtain ⟨file, linkageToo, linkedToo, isFileToo, fits, fitsToo, names, namesToo⟩ :=
    twins.exists_linkage comparable linked
  have founded := comparable.regular.founded_of_registered twins.registered
    (Class.not_isArray_of_linkage? linked)
  obtain ⟨code, injective⟩ := exists_code
  have tables : SameTables (code ∘ world.title) (code ∘ other.title) (world.type id)
      (other.type own) :=
    twins.sameTables comparable (fun _ _ same => congrArg code same) founded
  obtain ⟨slots, static⟩ := tables.slotTitled injective
  simp only [portrait, Portrait.mk.injEq]
  refine ⟨twins.title, twins.file?_eq comparable linked, ?_, ?_, ?_, ?_, ?_,
    tables.methodTitled injective fun _ _ => rfl, tables.methodTitled injective fun _ _ => rfl,
    tables.methodTitled injective fun _ _ => rfl, tables.methodTitled injective fun _ _ => rfl,
    slots, static⟩
  · rw [Class.superclass?_of_linkage linked, Class.superclass?_of_linkage linkedToo]
    exact title_superclass_eq comparable fits.linked (fitsToo.root.trans fits.root.symm) names
      namesToo
  · rw [Class.interfaces_of_linkage linked, Class.interfaces_of_linkage linkedToo]
    exact title_interfaces_eq comparable fits.linked names namesToo
  · exact funext fun name => twins.title_interface?_eq comparable linked name
  · rw [Class.component?_of_linkage linked, Class.component?_of_linkage linkedToo]
    rfl
  · rw [Class.dimension_of_linkage linked, Class.dimension_of_linkage linkedToo]

/-! ### Array classes -/

theorem Regular.title_of_findLoaded (regular : world.Regular)
    (entry : world.findLoaded loader name = some id) : world.title id = (loader, name) := by
  have stands := regular.entries loader name id entry
  exact Prod.ext stands.loader stands.name

namespace Comparable

variable (comparable : world.Comparable other)
include comparable

/-- What a loader has settled a plain name to stand for has one title. -/
theorem title_settled_eq {found foundToo : Option ClassId} (plain : name.toList.head? ≠ some '[')
    (settled : world.settled? loader name = some found)
    (settledToo : other.settled? loader name = some foundToo) :
    foundToo.map other.title = found.map world.title := by
  have shares := comparable.shares loader (hasLoader_of_settled? settled)
    (hasLoader_of_settled? settledToo)
  have files := shares.files loader List.mem_cons_self name
  cases found with
  | none =>
      have none := (comparable.regular.absent loader name settled).noFile
      rw [← files] at none
      have unknown := comparable.regularToo.findLoaded_eq_none plain none
      cases foundToo with
      | none => rfl
      | some own =>
          rw [findLoaded_eq_some.2 settledToo] at unknown
          cases unknown
  | some id =>
      cases foundToo with
      | none =>
          have none := (comparable.regularToo.absent loader name settledToo).noFile
          rw [files] at none
          have unknown := comparable.regular.findLoaded_eq_none plain none
          rw [findLoaded_eq_some.2 settled] at unknown
          cases unknown
      | some own =>
          rw [Option.map_some, Option.map_some,
            comparable.regular.title_of_findLoaded (findLoaded_eq_some.2 settled),
            comparable.regularToo.title_of_findLoaded (findLoaded_eq_some.2 settledToo)]

/-- Array classes inherit classes with one title. -/
theorem title_aboveArrays_eq {supertypes supertypesToo : ArraySupertypes}
    (above : world.AboveArrays supertypes) (aboveToo : other.AboveArrays supertypesToo) :
    other.title supertypesToo.superclass = world.title supertypes.superclass ∧
      supertypesToo.interfaces.map other.title = supertypes.interfaces.map world.title := by
  constructor
  · rw [comparable.regular.title_of_findLoaded above.superclass,
      comparable.regularToo.title_of_findLoaded aboveToo.superclass]
  · obtain ⟨cloneable, serializable, settled, settledNext, same⟩ := above.interfaces
    obtain ⟨cloneableToo, serializableToo, settledToo, settledNextToo, sameToo⟩ :=
      aboveToo.interfaces
    rw [same, sameToo, List.map_append, List.map_append, ← Option.toList_map, ← Option.toList_map,
      ← Option.toList_map, ← Option.toList_map,
      comparable.title_settled_eq (by decide) settled settledToo,
      comparable.title_settled_eq (by decide) settledNext settledNextToo]

end Comparable

/-- All that is to be seen of an array class. -/
theorem portrait_eq_of_isArray (isArray : (world.type id).isArray)
    (isArrayToo : (other.type own).isArray) (title : other.title own = world.title id)
    (superclass : (other.type own).superclass?.map other.title =
      (world.type id).superclass?.map world.title)
    (interfaces : (other.type own).interfaces.map other.title =
      (world.type id).interfaces.map world.title)
    (component : (other.type own).component?.map other.title =
      (world.type id).component?.map world.title)
    (dimension : (other.type own).dimension = (world.type id).dimension) :
    other.portrait own = world.portrait id := by
  have unlinked := Class.linkage?_of_isArray isArray
  have unlinkedToo := Class.linkage?_of_isArray isArrayToo
  simp only [portrait, Portrait.mk.injEq, Class.file?_of_isArray isArray,
    Class.file?_of_isArray isArrayToo, Class.interface?, Class.methods, Class.fields, unlinked,
    unlinkedToo, title, superclass, interfaces, component, dimension, true_and]
  exact ⟨rfl, rfl, rfl, rfl, rfl, rfl, rfl⟩

/-- Classes with one title look the same. -/
theorem Twins.portrait_eq (comparable : world.Comparable other) (twins : world.Twins other id own) :
    other.portrait own = world.portrait id := by
  -- the portrait of an array class is known from that of the component, whose name is shorter
  induction length : (world.type id).name.length using Nat.strongRecOn generalizing id own with
  | ind length inductionHypothesis =>
      have isArrayEq := twins.isArray_eq comparable
      by_cases isArray : (world.type id).isArray
      · have isArrayToo : (other.type own).isArray := by rw [isArrayEq, isArray]
        cases (comparable.regular.entries _ _ _ twins.registered).placed with
        | declared declared => exact absurd isArray declared
        | @primitiveArray element _ kind _ named above =>
            cases (comparable.regularToo.entries _ _ _ twins.registeredToo).placed with
            | declared declared => exact absurd isArrayToo declared
            | @primitiveArray elementToo _ kindToo _ namedToo aboveToo =>
                obtain ⟨superclass, interfaces⟩ := comparable.title_aboveArrays_eq above aboveToo
                apply portrait_eq_of_isArray isArray isArrayToo twins.title
                · simpa [Class.superclass?, kind, kindToo] using superclass
                · simpa [Class.interfaces, kind, kindToo] using interfaces
                · simp [Class.component?, kind, kindToo]
                · simp [Class.dimension, kind, kindToo]
            | referenceArray kindToo _ _ _ _ written reference _ _ =>
                rw [twins.name_eq, named, FieldType.ofDescriptor?_arrayOfPrimitives] at written
                cases written
                exact absurd rfl reference
        | @referenceArray component _ _ _ kind registered home _ dimension written reference below
            above =>
            cases (comparable.regularToo.entries _ _ _ twins.registeredToo).placed with
            | declared declared => exact absurd isArrayToo declared
            | @primitiveArray elementToo _ kindToo _ namedToo aboveToo =>
                rw [← twins.name_eq, namedToo, FieldType.ofDescriptor?_arrayOfPrimitives] at written
                cases written
                exact absurd rfl reference
            | @referenceArray componentToo _ _ _ kindToo registeredToo homeToo _ dimensionToo
                writtenToo _ belowToo aboveToo =>
                rw [twins.name_eq, written] at writtenToo
                cases writtenToo
                have components : world.Twins other component componentToo := by
                  refine ⟨registered, registeredToo, Prod.ext ?_ (belowToo.symm.trans below)⟩
                  exact homeToo.symm.trans (twins.loader_eq.trans home)
                have shorter := FieldType.length_loadName_lt written
                rw [below] at shorter
                have portraits := inductionHypothesis _ (length ▸ shorter) components rfl
                obtain ⟨superclass, interfaces⟩ := comparable.title_aboveArrays_eq above aboveToo
                apply portrait_eq_of_isArray isArray isArrayToo twins.title
                · simpa [Class.superclass?, kind, kindToo] using superclass
                · simpa [Class.interfaces, kind, kindToo] using interfaces
                · simpa [Class.component?, kind, kindToo] using components.title
                · simp only [Class.dimension, kind, kindToo, dimension, dimensionToo]
                  exact congrArg (Portrait.dimension · + 1) portraits
      · have usable := comparable.sound.directories _ _ _ twins.registered
        obtain ⟨linkage, linked⟩ :=
          Option.isSome_iff_exists.1 (linkage?_of_isUsable usable isArray)
        exact twins.portrait_eq_of_linked comparable linked

/-- A loader leads by a name to classes with one title. -/
theorem Comparable.twins_of_leadsTo (comparable : world.Comparable other)
    (leads : world.LeadsTo loader name id) (leadsToo : other.LeadsTo loader name own) :
    world.Twins other id own := by
  refine ⟨comparable.regular.registered_of_leadsTo leads,
    comparable.regularToo.registered_of_leadsTo leadsToo, ?_⟩
  have sameEntry {definer : LoaderId} {key : String} {id own : ClassId}
      (entry : world.findLoaded definer key = some id)
      (entryToo : other.findLoaded definer key = some own) : other.title own = world.title id := by
    rw [comparable.regular.title_of_findLoaded entry,
      comparable.regularToo.title_of_findLoaded entryToo]
  induction length : name.length using Nat.strongRecOn generalizing name id own with
  | ind length inductionHypothesis =>
      by_cases plain : name.toList.head? ≠ some '['
      · obtain ⟨definer, among, entry⟩ := leads.exists_definer plain
        obtain ⟨definerToo, amongToo, entryToo⟩ := leadsToo.exists_definer plain
        obtain ⟨_, topmost, _⟩ := comparable.regular.topmost_of_findLoaded plain among entry
        obtain ⟨_, topmostToo, _⟩ :=
          comparable.regularToo.topmost_of_findLoaded plain amongToo entryToo
        obtain ⟨rfl, _⟩ := comparable.topmost_unique topmost topmostToo
        exact sameEntry entry entryToo
      · have bracket := not_not.1 plain
        obtain ⟨type, written⟩ := comparable.regular.written_of_leadsTo bracket leads
        rcases comparable.regular.leadsTo_array written leads with
          ⟨element, isPrimitive, entry⟩ | ⟨reference, component, below, entry⟩
        all_goals
          rcases comparable.regularToo.leadsTo_array written leadsToo with
            ⟨elementToo, isPrimitiveToo, entryToo⟩ |
            ⟨referenceToo, componentToo, belowToo, entryToo⟩
        · rw [isPrimitive] at isPrimitiveToo
          cases isPrimitiveToo
          exact sameEntry entry entryToo
        · exact absurd (isPrimitive ▸ rfl) referenceToo
        · exact absurd (isPrimitiveToo ▸ rfl) reference
        · have shorter := FieldType.length_loadName_lt written
          have title := inductionHypothesis _ (length ▸ shorter) below belowToo rfl
          have components : world.Twins other component componentToo :=
            ⟨comparable.regular.registered_of_leadsTo below,
              comparable.regularToo.registered_of_leadsTo belowToo, title⟩
          have arrayName : (other.type componentToo).arrayName =
              (world.type component).arrayName := by
            rw [Class.arrayName, components.isArray_eq comparable, components.name_eq,
              Class.arrayName]
          rw [components.loader_eq, arrayName] at entryToo
          exact sameEntry entry entryToo

end World
end JavaMachine
