import JavaMachine.Proofs.Work

/-!
# What linking computes

What linking a class computes fits, the supertypes are those that the loader sees under the names in
the file, and static fields start with the values that the file says, whatever is loaded on the way
as long as loading lets worlds evolve.
-/

namespace JavaMachine.World

variable {α : Type} {world later : World} {load : Load} {loader : LoaderId} {name : String}
variable {file : ClassFile}

theorem className?_of_requireClassName {index : UInt16}
    (required : file.requireClassName index = .ok name) : file.className? index = some name := by
  unfold ClassFile.requireClassName at required
  split at required
  next found =>
    cases required
    exact found
  next => cases required

/-! ### Supertypes -/

/-- The superclass of a class named `name` has been found, unless that is the root class. -/
structure SuperclassFound (loader : LoaderId) (name : String) (file : ClassFile)
    (superclass : Option ClassId) (later : World) : Prop where
  root : superclass = none ↔ name = WellKnown.objectClass
  linked : ∀ id, superclass = some id → (later.type id).linkage?.isSome
  isClass : ∀ id, superclass = some id → ¬ (later.type id).isInterface
  notFinal : ∀ id, superclass = some id → ¬ (later.type id).isFinal
  none : superclass = none → file.superClass = 0
  leads : ∀ id, superclass = some id → ∃ superName,
    file.className? file.superClass = some superName ∧ later.LeadsTo loader superName id

theorem linkSuperclass_ends (finds : load.Finds) (loader : LoaderId) (name : String)
    (file : ClassFile) (sound : world.Sound) :
    Ends Evolves world (linkSuperclass load loader name file)
      (SuperclassFound loader name file) := by
  unfold linkSuperclass
  dsimp only
  split
  next none =>
    split
    next isRoot =>
      exact .pure (.refl sound) ⟨by simp [isRoot], nofun, nofun, nofun, fun _ => none, nofun⟩
    · exact .throw (.refl sound)
  · split
    · exact .throw (.refl sound)
    next notRoot =>
      refine (ofLinking_ends sound).bind fun superName _ _ required => ?_
      obtain ⟨required, rfl⟩ := required
      refine (Load.required_ends finds loader superName sound).bind
        fun id later evolves leads => ?_
      apply Ends.bindGet
      split
      · exact .throw (.refl evolves.sound)
      next declared =>
        split
        · exact .throw (.refl evolves.sound)
        next isClass =>
          split
          · exact .throw (.refl evolves.sound)
          next notFinal =>
            refine .pure (.refl evolves.sound) ⟨by simp [notRoot], ?_, ?_, ?_, nofun, ?_⟩
            · intro other same
              cases same
              exact linkage?_of_isUsable (leads.isUsable evolves.sound) declared
            · intro other same
              cases same
              exact isClass
            · intro other same
              cases same
              exact notFinal
            · intro other same
              cases same
              exact ⟨superName, className?_of_requireClassName required, leads⟩

/-- What is found are linked interfaces, and what is known of interfaces by name was known before or
comes from them; the loader leads to them, and sees those that are known under their names. -/
structure InterfacesFound (loader : LoaderId) (file : ClassFile) (indices : List UInt16)
    (known : Table String ClassId) (found : List ClassId × Table String ClassId)
    (later : World) : Prop where
  named : later.Regular → indices.map file.className? =
    found.1.map fun interface => some (later.type interface).name
  length : found.1.length = indices.length
  linked : ∀ interface ∈ found.1, (later.type interface).linkage?.isSome
  isInterface : ∀ interface ∈ found.1, (later.type interface).isInterface
  comesFrom : ∀ name interface, found.2.find? name = some interface →
    known.find? name = some interface ∨ interface ∈ found.1 ∨
      ∃ declared ∈ found.1, ∃ linkage, (later.type declared).linkage? = some linkage ∧
        linkage.allInterfaces.find? name = some interface
  keeps : ∀ name, (known.find? name).isSome → (found.2.find? name).isSome
  covers : ∀ interface ∈ found.1, ∀ linkage, (later.type interface).linkage? = some linkage →
    ∀ name, (linkage.allInterfaces.find? name).isSome → (found.2.find? name).isSome
  leads : ∀ interface ∈ found.1, ∃ name,
    (found.2.find? name).isSome ∧ later.LeadsTo loader name interface
  sees : later.Regular → ∀ name interface, found.2.find? name = some interface →
    known.find? name = some interface ∨
      (later.type interface).name = name ∧ later.Sees loader interface

theorem interfacesFound_nil {known : Table String ClassId} :
    InterfacesFound loader file [] known ([], known) world where
  named _ := rfl
  length := rfl
  linked := nofun
  isInterface := nofun
  comesFrom _ _ found := .inl found
  keeps _ found := found
  covers := nofun
  leads := nofun
  sees _ _ _ found := .inl found

/-- What a linked class that a loader sees knows by name, the loader sees as well. -/
theorem Regular.sees_allInterfaces (regular : world.Regular) (sound : world.Sound)
    {id interface : ClassId} {linkage : Linkage} (sees : world.Sees loader id)
    (linked : (world.type id).linkage? = some linkage)
    (known : linkage.allInterfaces.find? name = some interface) :
    (world.type interface).name = name ∧ world.Sees loader interface := by
  obtain ⟨file, declares, _⟩ := sound.fits linked
  obtain ⟨same, seesAbove⟩ :=
    (regular.links id file linkage declares linked).allInterfaces name interface known
  exact ⟨same, sound.sees_of_sees sees.among seesAbove⟩

/-- What is known once an interface and those that it knows have been added. -/
theorem find?_eq_some_of_insert {known inherited : Table String ClassId} {key : String}
    {id interface : ClassId}
    (found : ((known.insertAll inherited).insert name id).find? key = some interface) :
    name = key ∧ id = interface ∨ inherited.find? key = some interface ∨
      known.find? key = some interface := by
  rw [Table.find?_insert] at found
  split at found
  next same => exact .inl ⟨same, Option.some_inj.1 found⟩
  next =>
    rw [Table.find?_insertAll] at found
    exact .inr ((Option.or_eq_some_iff.1 found).imp_right And.right)

/-- One interface more in front of those that are found after it. -/
theorem InterfacesFound.cons {known : Table String ClassId} {index : UInt16}
    {rest : List UInt16} {id : ClassId} {linkage : Linkage}
    {others : List ClassId × Table String ClassId} (sound : later.Sound)
    (named : file.className? index = some name)
    (leads : later.LeadsTo loader name id) (linked : (later.type id).linkage? = some linkage)
    (isInterface : (later.type id).isInterface)
    (found : InterfacesFound loader file rest
      ((known.insertAll linkage.allInterfaces).insert name id) others later) :
    InterfacesFound loader file (index :: rest) known (id :: others.1, others.2) later := by
  have keeps (key : String) (isKnown : key = name ∨ (linkage.allInterfaces.find? key).isSome ∨
      (known.find? key).isSome) : (others.2.find? key).isSome := by
    apply found.keeps
    rw [Table.find?_insert]
    split
    · rfl
    next distinct =>
      rcases isKnown with same | own | before
      · exact absurd same.symm distinct
      · simp [own]
      · simp [before]
  constructor
  case named =>
    intro regular
    obtain ⟨_, same⟩ := regular.sees_of_leadsTo leads (Class.not_isArray_of_linkage? linked)
    rw [List.map_cons, List.map_cons, found.named regular, named, same]
  case length => simp [found.length]
  case linked =>
    intro interface membership
    rcases List.mem_cons.1 membership with same | other
    · rw [same, linked]
      rfl
    · exact found.linked interface other
  case isInterface =>
    intro interface membership
    rcases List.mem_cons.1 membership with same | other
    · rwa [same]
    · exact found.isInterface interface other
  case comesFrom =>
    intro key interface isKnown
    rcases found.comesFrom key interface isKnown with before | among | inherited
    · rcases find?_eq_some_of_insert before with ⟨_, same⟩ | own | earlier
      · exact .inr (.inl (same ▸ List.mem_cons_self))
      · exact .inr (.inr ⟨id, List.mem_cons_self, linkage, linked, own⟩)
      · exact .inl earlier
    · exact .inr (.inl (List.mem_cons_of_mem _ among))
    · obtain ⟨declaring, membership, rest⟩ := inherited
      exact .inr (.inr ⟨declaring, List.mem_cons_of_mem _ membership, rest⟩)
  case keeps => exact fun key before => keeps key (.inr (.inr before))
  case covers =>
    intro interface membership own linkedTo key isKnown
    rcases List.mem_cons.1 membership with same | other
    · subst same
      rw [linked] at linkedTo
      cases linkedTo
      exact keeps key (.inr (.inl isKnown))
    · exact found.covers interface other own linkedTo key isKnown
  case leads =>
    intro interface membership
    rcases List.mem_cons.1 membership with same | other
    · subst same
      exact ⟨name, keeps _ (.inl rfl), leads⟩
    · exact found.leads interface other
  case sees =>
    intro regular key interface isKnown
    rcases found.sees regular key interface isKnown with before | now
    · obtain ⟨sees, named⟩ := regular.sees_of_leadsTo leads (Class.not_isArray_of_linkage? linked)
      rcases find?_eq_some_of_insert before with ⟨sameName, same⟩ | own | earlier
      · exact .inr (same ▸ ⟨named.trans sameName, sees⟩)
      · exact .inr (regular.sees_allInterfaces sound sees linked own)
      · exact .inl earlier
    · exact .inr now

theorem linkInterfaces_ends (finds : load.Finds) (loader : LoaderId) (name : String)
    (file : ClassFile) (indices : List UInt16) (known : Table String ClassId)
    (sound : world.Sound) :
    Ends Evolves world (linkInterfaces load loader name file indices known)
      (InterfacesFound loader file indices known) := by
  induction indices generalizing known world with
  | nil => exact .pure (.refl sound) interfacesFound_nil
  | cons index rest inductionHypothesis =>
      refine (ofLinking_ends sound).bind fun interfaceName _ _ required => ?_
      obtain ⟨required, rfl⟩ := required
      refine (Load.required_ends finds loader interfaceName sound).bind
        fun id later evolves leads => ?_
      apply Ends.bindGet
      dsimp only
      split
      · exact .throw (.refl evolves.sound)
      next declared =>
        split
        · exact .throw (.refl evolves.sound)
        next isInterface =>
          obtain ⟨linkage, linked⟩ := Option.isSome_iff_exists.1
            (linkage?_of_isUsable (leads.isUsable evolves.sound) declared)
          rw [linked]
          refine (inductionHypothesis _ evolves.sound).bind fun others last evolvesOn found => ?_
          have keeps := evolvesOn.keepsUsable
          have isInterfaceStill : (last.type id).isInterface := by
            rw [keeps.isInterface_eq (Option.isSome_of_eq_some linked)]
            simpa using isInterface
          exact .pure (.refl evolvesOn.sound) (found.cons evolvesOn.sound
            (className?_of_requireClassName required)
            (leads.mono evolves.sound evolvesOn.retains) (keeps.linkage? linked) isInterfaceStill)

/-! ### Fields -/

/-- A static field gets the value that the file says. -/
theorem initialValue_ends (finds : load.Finds) (file : ClassFile) (field : Field)
    (sound : world.Sound) :
    Ends Evolves world (initialValue load file field) fun value later =>
      ∃ first, field.firstValue? file = .ok first ∧ later.Depicts value first := by
  rw [initialValue_eq]
  refine (ofLinking_ends sound).bind fun first _ _ known => ?_
  obtain ⟨known, rfl⟩ := known
  cases first with
  | plain value => exact .pure (.refl sound) ⟨_, known, rfl⟩
  | string text =>
      refine (Load.intern_ends finds text sound).bind fun object later evolves found => ?_
      exact .pure (.refl evolves.sound) ⟨_, known, object, rfl, found⟩

/-- One static field more. -/
theorem Starts.push {layout extended : FieldLayout} {static : Array Value} {field : Field}
    {value : Value} {first : FirstValue} (starts : world.Starts file layout static)
    (added : layout.add name field = .ok extended) (isStatic : field.isStatic)
    (known : field.firstValue? file = .ok first) (depicts : world.Depicts value first) :
    world.Starts file extended (static.push value) := by
  have absent := FieldLayout.find?_static_of_add added
  obtain ⟨_, _, extension⟩ := FieldLayout.add_ok added
  rw [if_pos isStatic] at extension
  constructor
  · rw [extension, Table.size_insert_of_absent _ _ absent, Array.size_push, starts.size]
  · intro key slot found
    rw [extension, Table.find?_insert] at found
    split at found
    · cases found
      refine ⟨value, first, ?_, known, depicts⟩
      rw [← starts.size]
      simp
    · obtain ⟨old, oldFirst, stored, rest⟩ := starts.values key slot found
      refine ⟨old, oldFirst, ?_, rest⟩
      have place := (Array.getElem?_eq_some_iff.1 stored).1
      rw [Array.getElem?_push, if_neg (Nat.ne_of_lt place), stored]

/-- A field that is not static takes no static value. -/
theorem Starts.of_instance {layout extended : FieldLayout} {static : Array Value} {field : Field}
    (starts : world.Starts file layout static) (added : layout.add name field = .ok extended)
    (isInstance : ¬ field.isStatic) : world.Starts file extended static := by
  obtain ⟨_, _, same⟩ := FieldLayout.add_ok added
  rw [if_neg isInstance] at same
  exact ⟨same ▸ starts.size, same ▸ starts.values⟩

/-- The layout does not depend on what is loaded for the values of static fields, and these are the
ones with which the fields start. -/
theorem linkFields_ends (finds : load.Finds) (file : ClassFile) (owner : ClassId)
    (name : String) (members : List (Member FieldFlags)) (layout : FieldLayout)
    (static : Array Value) (sound : world.Sound) (starts : world.Starts file layout static) :
    Ends Evolves world (linkFields load file owner name members layout static) fun result later =>
      FieldLayout.addAll file owner name members layout = .ok result.1 ∧
        later.Starts file result.1 result.2 := by
  induction members generalizing layout static world with
  | nil => exact .pure (.refl sound) ⟨rfl, starts⟩
  | cons member rest inductionHypothesis =>
      refine (ofLinking_ends sound).bind fun field _ _ read => ?_
      obtain ⟨read, rfl⟩ := read
      refine (ofLinking_ends sound).bind fun extended _ _ added => ?_
      obtain ⟨added, rfl⟩ := added
      rw [FieldLayout.addAll_cons read added]
      split
      next isStatic =>
        refine (initialValue_ends finds file field sound).bind fun value later evolves begun => ?_
        obtain ⟨first, known, depicts⟩ := begun
        exact inductionHypothesis extended (static.push value) evolves.sound
          ((starts.mono evolves.retains.strings).push added isStatic known depicts)
      next isInstance =>
        exact inductionHypothesis extended static sound (starts.of_instance added isInstance)

/-! ### What linking puts together -/

/-- What is read off the linkages of linked classes can be read off the classes. -/
theorem map_of_linkages {read : Linkage → α} (readType : Class → α)
    (same : ∀ type linkage, Class.linkage? type = some linkage → readType type = read linkage)
    (interfaces : List ClassId)
    (linked : ∀ interface ∈ interfaces, (world.type interface).linkage?.isSome) :
    (interfaces.filterMap fun interface => (world.type interface).linkage?).map read =
      interfaces.map fun interface => readType (world.type interface) := by
  induction interfaces with
  | nil => rfl
  | cons first rest inductionHypothesis =>
      obtain ⟨linkage, found⟩ := Option.isSome_iff_exists.1 (linked first List.mem_cons_self)
      have others := inductionHypothesis fun interface membership =>
        linked interface (List.mem_cons_of_mem _ membership)
      rw [List.filterMap_cons, found, List.map_cons, others, List.map_cons, same _ _ found]

theorem methods_of_linkage? {type : Class} {linkage : Linkage}
    (linked : type.linkage? = some linkage) : type.methods = linkage.methods := by
  rw [Class.methods, linked]
  rfl

theorem fields_of_linkage? {type : Class} {linkage : Linkage}
    (linked : type.linkage? = some linkage) : type.fields = linkage.fields := by
  rw [Class.fields, linked]
  rfl

section Built

variable {above : World} {id : ClassId} {linkage : Linkage}

/-- What is inherited can be read off the superclass wherever it is linked. -/
theorem getD_of_superclass {read : Linkage → α} (readType : Class → α) {otherwise : α}
    (same : ∀ type linkage, Class.linkage? type = some linkage → readType type = read linkage)
    (keeps : above.KeepsUsable world) {superclass : Option ClassId}
    (linked : ∀ id, superclass = some id → (above.type id).linkage?.isSome) :
    ((superclass.bind fun id => (above.type id).linkage?).map read).getD otherwise =
      (superclass.map fun id => readType (world.type id)).getD otherwise := by
  cases superclass with
  | none => rfl
  | some id =>
      obtain ⟨inherited, found⟩ := Option.isSome_iff_exists.1 (linked id rfl)
      rw [Option.bind_some, found, Option.map_some, Option.map_some, Option.getD_some,
        Option.getD_some, same _ _ (keeps.linkage? found)]

/-- What linking has put together from a superclass that was found first and interfaces that were
found next. -/
structure Built (above world : World) (id : ClassId) (name : String) (file : ClassFile)
    (linkage : Linkage) : Prop where
  height : linkage.height = heightAbove (linkage.supertypes.map world.linkedHeight)
  methods : MethodTables.build file id name
    (((linkage.superclass.bind fun superclass => (above.type superclass).linkage?).map
      fun linkage => linkage.methods.virtual).getD {})
    ((linkage.interfaces.filterMap fun interface => (world.type interface).linkage?).map
      fun linkage => linkage.methods.virtual) = .ok linkage.methods
  fields : FieldLayout.addAll file id name file.fields (FieldLayout.inherit
    (((linkage.superclass.bind fun superclass => (above.type superclass).linkage?).map
      fun linkage => linkage.fields.slots).getD [])
    ((linkage.interfaces.filterMap fun interface => (world.type interface).linkage?).map
      fun linkage => linkage.fields.slots)) = .ok linkage.fields
  attributes : ClassAttributes.ofFile file = .ok linkage.attributes
  firstValues : ∀ key slot, linkage.fields.static.find? key = some slot →
    ∃ first, slot.field.firstValue? file = .ok first

/-- The interfaces of a superclass by their names. -/
def inheritedInterfaces (above : World) (superclass : Option ClassId) : Table String ClassId :=
  ((superclass.bind fun superclass => (above.type superclass).linkage?).map
    Linkage.allInterfaces).getD {}

variable (superFound : SuperclassFound loader name file linkage.superclass above)
variable (found : InterfacesFound loader file file.interfaces
  (above.inheritedInterfaces linkage.superclass) (linkage.interfaces, linkage.allInterfaces) world)
variable (evolves : above.Evolves world)
include superFound found evolves

/-- The dispatch tables that building starts from, read off the classes. -/
theorem virtual_of_found :
    (((linkage.superclass.bind fun superclass => (above.type superclass).linkage?).map
      fun linkage => linkage.methods.virtual).getD {}) =
        world.inheritedVirtual linkage.superclass ∧
    ((linkage.interfaces.filterMap fun interface => (world.type interface).linkage?).map
      fun linkage => linkage.methods.virtual) =
        linkage.interfaces.map fun interface => (world.type interface).methods.virtual :=
  ⟨getD_of_superclass (fun type => type.methods.virtual)
      (fun _ _ linked => by rw [methods_of_linkage? linked]) evolves.keepsUsable superFound.linked,
    map_of_linkages (fun type => type.methods.virtual)
      (fun _ _ linked => by rw [methods_of_linkage? linked]) _ found.linked⟩

/-- The layouts that the own one starts from, read off the classes. -/
theorem slots_of_found :
    (((linkage.superclass.bind fun superclass => (above.type superclass).linkage?).map
      fun linkage => linkage.fields.slots).getD []) =
        (world.inheritedFields linkage.superclass).slots ∧
    ((linkage.interfaces.filterMap fun interface => (world.type interface).linkage?).map
      fun linkage => linkage.fields.slots) =
        linkage.interfaces.map fun interface => (world.type interface).fields.slots := by
  constructor
  · rw [getD_of_superclass (fun type => type.fields.slots)
      (fun _ _ linked => by rw [fields_of_linkage? linked]) evolves.keepsUsable superFound.linked]
    cases linkage.superclass <;> rfl
  · exact map_of_linkages (fun type => type.fields.slots)
      (fun _ _ linked => by rw [fields_of_linkage? linked]) _ found.linked

theorem fits_of_built (built : Built above world id name file linkage) :
    world.Fits id name file linkage := by
  have keeps := evolves.keepsUsable
  obtain ⟨superVirtual, interfacesVirtual⟩ := virtual_of_found superFound found evolves
  obtain ⟨superSlots, interfacesSlots⟩ := slots_of_found superFound found evolves
  have superLinked (superclass : ClassId) (isSuperclass : linkage.superclass = some superclass) :
      ∃ inherited, (above.type superclass).linkage? = some inherited ∧
        (world.type superclass).linkage? = some inherited ∧
          above.inheritedInterfaces linkage.superclass = inherited.allInterfaces := by
    obtain ⟨inherited, linked⟩ :=
      Option.isSome_iff_exists.1 (superFound.linked superclass isSuperclass)
    refine ⟨inherited, linked, keeps.linkage? linked, ?_⟩
    rw [inheritedInterfaces, isSuperclass, Option.bind_some, linked]
    rfl
  constructor
  case linked =>
    intro supertype membership
    rcases List.mem_append.1 membership with isSuperclass | isInterface
    · obtain ⟨inherited, _, linked, _⟩ := superLinked supertype (Option.mem_toList.1 isSuperclass)
      rw [linked]
      rfl
    · exact found.linked supertype isInterface
  case root => exact superFound.root
  case superclass =>
    intro superclass isSuperclass
    rw [keeps.isInterface_eq (superFound.linked superclass isSuperclass)]
    exact superFound.isClass superclass isSuperclass
  case notFinal =>
    intro superclass isSuperclass
    rw [keeps.isFinal_eq (superFound.linked superclass isSuperclass)]
    exact superFound.notFinal superclass isSuperclass
  case isInterface => exact found.isInterface
  case interfaces => exact found.length
  case height => exact built.height
  case methods =>
    have methods := built.methods
    rw [superVirtual, interfacesVirtual] at methods
    exact methods
  case fields =>
    have fields := built.fields
    rw [superSlots, interfacesSlots] at fields
    exact fields
  case attributes => exact built.attributes
  case firstValues => exact built.firstValues
  case allInterfaces =>
    intro key interface isKnown
    rcases found.comesFrom key interface isKnown with before | among | inherited
    · cases isSuperclass : linkage.superclass with
      | none =>
          rw [isSuperclass] at before
          cases before
      | some superclass =>
          obtain ⟨inherited, _, linked, table⟩ := superLinked superclass isSuperclass
          rw [table] at before
          exact .inr ⟨superclass, mem_supertypes_of_superclass isSuperclass, inherited, linked,
            before⟩
    · exact .inl among
    · obtain ⟨declaring, membership, rest⟩ := inherited
      exact .inr ⟨declaring, mem_supertypes_of_interface membership, rest⟩
  case covers =>
    intro supertype membership inherited linked key isKnown
    rcases List.mem_append.1 membership with isSuperclass | isInterface
    · obtain ⟨own, _, linkedToo, table⟩ := superLinked supertype (Option.mem_toList.1 isSuperclass)
      rw [linked] at linkedToo
      cases linkedToo
      exact found.keeps key (by rw [table]; exact isKnown)
    · exact found.covers supertype isInterface inherited linked key isKnown

theorem names_of_found (sound : above.Sound) (regular : world.Regular) :
    world.Names loader file linkage := by
  have superSees (superclass : ClassId) (isSuperclass : linkage.superclass = some superclass) :
      world.Sees loader superclass ∧
        file.className? file.superClass = some (world.type superclass).name := by
    obtain ⟨superName, named, leads⟩ := superFound.leads superclass isSuperclass
    obtain ⟨inherited, linked⟩ :=
      Option.isSome_iff_exists.1 (superFound.linked superclass isSuperclass)
    obtain ⟨sees, same⟩ := regular.sees_of_leadsTo (leads.mono sound evolves.retains)
      (Class.not_isArray_of_linkage? (evolves.keepsUsable.linkage? linked))
    rw [same]
    exact ⟨sees, named⟩
  have interfaceSees (interface : ClassId) (declared : interface ∈ linkage.interfaces) :
      world.Sees loader interface ∧
        (linkage.allInterfaces.find? (world.type interface).name).isSome := by
    obtain ⟨name, isKnown, leads⟩ := found.leads interface declared
    obtain ⟨own, linked⟩ := Option.isSome_iff_exists.1 (found.linked interface declared)
    obtain ⟨sees, same⟩ := regular.sees_of_leadsTo leads (Class.not_isArray_of_linkage? linked)
    rw [same]
    exact ⟨sees, isKnown⟩
  constructor
  case supertypes =>
    intro supertype membership
    rcases List.mem_append.1 membership with isSuperclass | isInterface
    · exact (superSees supertype (Option.mem_toList.1 isSuperclass)).1
    · exact (interfaceSees supertype isInterface).1
  case root => exact superFound.none
  case superclass => exact fun superclass isSuperclass => (superSees superclass isSuperclass).2
  case declared => exact found.named regular
  case interfaces => exact fun interface declared => (interfaceSees interface declared).2
  case allInterfaces =>
    intro key interface isKnown
    rcases found.sees regular key interface isKnown with before | now
    · obtain ⟨inherited, isInherited, known⟩ : ∃ inherited,
          (linkage.superclass.bind fun superclass => (above.type superclass).linkage?) =
            some inherited ∧ inherited.allInterfaces.find? key = some interface := by
        rw [inheritedInterfaces] at before
        cases linked : linkage.superclass.bind fun superclass =>
          (above.type superclass).linkage? with
        | none =>
            rw [linked] at before
            cases before
        | some inherited =>
            rw [linked] at before
            exact ⟨inherited, rfl, before⟩
      obtain ⟨superclass, isSuperclass, linked⟩ := Option.bind_eq_some_iff.1 isInherited
      exact regular.sees_allInterfaces evolves.sound
        (superSees superclass isSuperclass).1 (evolves.keepsUsable.linkage? linked) known
    · exact now

end Built

/-- What linking a class gives fits, its supertypes are seen by the loader, and its static fields
have the values with which they start. -/
structure Linked (start : World) (id : ClassId) (loader : LoaderId) (name : String)
    (file : ClassFile) (linkage : Linkage) (static : Array Value) (later : World) : Prop where
  fits : later.Fits id name file linkage
  names : start.Regular → later.Names loader file linkage
  starts : later.Starts file linkage.fields static

theorem linkDeclared_ends (finds : load.Finds) (id : ClassId) (loader : LoaderId) (name : String)
    (file : ClassFile) (sound : world.Sound) :
    Ends Evolves world (linkDeclared load id loader name file) fun result later =>
      Linked world id loader name file result.1 result.2 later := by
  refine (linkSuperclass_ends finds loader name file sound).bind
    fun superclass above evolves superFound => ?_
  apply Ends.bindGet
  refine (linkInterfaces_ends finds loader name file _ _ evolves.sound).bind
    fun found beside evolvesBeside interfacesFound => ?_
  obtain ⟨interfaces, allInterfaces⟩ := found
  apply Ends.bindGet
  refine (ofLinking_ends evolvesBeside.sound).bind fun methods same _ built => ?_
  obtain ⟨built, rfl⟩ := built
  refine (linkFields_ends finds file id name _ _ _ evolvesBeside.sound
    ⟨rfl, fun _ _ found => by cases found⟩).bind
    fun fields later evolvesOn added => ?_
  obtain ⟨added, starts⟩ := added
  refine (ofLinking_ends evolvesOn.sound).bind fun attributes _ _ read => ?_
  obtain ⟨read, rfl⟩ := read
  refine .pure (.refl evolvesOn.sound) ⟨?_, fun regular => ?_, starts⟩
  · apply Fits.mono _ evolvesOn.keepsUsable
    refine fits_of_built superFound interfacesFound evolvesBeside ⟨rfl, built, added, read, ?_⟩
    intro key slot found
    obtain ⟨_, first, _, known, _⟩ := starts.values key slot found
    exact ⟨first, known⟩
  · apply Names.mono evolvesBeside.sound evolvesOn.retains
    exact names_of_found superFound interfacesFound evolvesBeside evolves.sound
      (evolvesBeside.regular (evolves.regular regular))

end JavaMachine.World
