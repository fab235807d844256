import JavaMachine.Proofs.Circularity
import JavaMachine.Proofs.Portrait

/-!
# What was linked once can be linked again

A class that has been linked in one world can be linked in any other whose loaders ask the same ones
and have the same files, if what its linking needs can be loaded there: that is of the same kind in
both worlds, so tables and layouts can be put together as before.
-/

namespace JavaMachine.World

variable {model world later : World} {loader definer : LoaderId} {name : String}
variable {id needed own : ClassId} {file : ClassFile} {linkage : Linkage} {load : Load}

/-! ### What linking needs -/

/-- What linking a class asks for: its supertypes, and the class of strings where it needs one. -/
inductive Needs (world : World) (id : ClassId) : ClassId → Prop where
  | supertype {linkage : Linkage} {type : ClassId}
      (linked : (world.type id).linkage? = some linkage) (above : type ∈ linkage.supertypes) :
      Needs world id type
  | strings {file : ClassFile} {linkage : Linkage} {type : ClassId}
      (isFile : (world.type id).file? = some file)
      (linked : (world.type id).linkage? = some linkage) (needs : NeedsString file linkage)
      (entry : world.findLoaded .bootstrap WellKnown.stringClass = some type) : Needs world id type

theorem Founded.acc (founded : world.Founded id) : Acc (Function.swap world.Needs) id := by
  induction founded with
  | intro isFile linked _ _ _ supertypes strings =>
      refine ⟨_, fun type needs => ?_⟩
      cases needs with
      | supertype linkedToo above =>
          rw [linked] at linkedToo
          cases linkedToo
          exact supertypes type above
      | strings isFileToo linkedToo needs entry =>
          rw [isFile] at isFileToo
          rw [linked] at linkedToo
          cases isFileToo
          cases linkedToo
          exact strings needs type entry

/-- Where a class needs strings the class of strings has been found. -/
theorem Founded.exists_strings (founded : world.Founded id)
    (isFile : (world.type id).file? = some file) (linked : (world.type id).linkage? = some linkage)
    (needs : NeedsString file linkage) :
    ∃ type, world.findLoaded .bootstrap WellKnown.stringClass = some type := by
  cases founded with
  | intro isFileToo linkedToo _ known _ =>
      rw [isFile] at isFileToo
      rw [linked] at linkedToo
      cases isFileToo
      cases linkedToo
      exact Option.isSome_iff_exists.1 (known needs)

/-- What a linked class needs is entered and linked itself. -/
theorem Regular.registered_of_needs (regular : world.Regular) (sound : world.Sound)
    (needs : world.Needs id needed) :
    world.Registered needed ∧ ¬ (world.type needed).isArray := by
  cases needs with
  | supertype linked above =>
      obtain ⟨file, isFile, fits⟩ := sound.fits linked
      have sees := (regular.links id file _ isFile linked).supertypes needed above
      obtain ⟨_, linkedAbove⟩ := Option.isSome_iff_exists.1 (fits.linked needed above)
      exact ⟨sees.registered, Class.not_isArray_of_linkage? linkedAbove⟩
  | strings _ _ _ entry =>
      exact ⟨regular.registered_of_findLoaded entry,
        (regular.entries _ _ _ entry).not_isArray (by decide)⟩

theorem Regular.registered_of_reaches (regular : world.Regular) (sound : world.Sound)
    (registered : world.Registered id) (declared : ¬ (world.type id).isArray)
    (reaches : Relation.ReflTransGen world.Needs id needed) :
    world.Registered needed ∧ ¬ (world.type needed).isArray := by
  rcases reaches.cases_tail with rfl | ⟨middle, _, last⟩
  · exact ⟨registered, declared⟩
  · exact regular.registered_of_needs sound last

/-! ### Worlds in which a class can be loaded -/

/-- Nothing that a class of the model needs is under way in a world like the model, and only names
for which there is a file and names of array classes are. -/
structure Ready (model : World) (id : ClassId) (world : World) : Prop
    extends model.Comparable world where
  free : ∀ needed, Relation.ReflTransGen model.Needs id needed →
    ¬ world.Defining (model.type needed).loader (model.type needed).name
  filed : ∀ loader name, world.Defining loader name → name.toList.head? ≠ some '[' →
    world.fileFor loader name ≠ .ok none

theorem Ready.of_settles (ready : model.Ready id world) (sound : later.Sound)
    (regular : later.Regular) (settles : world.Settles later) : model.Ready id later where
  toComparable := ready.toComparable.of_settles sound regular settles
  free needed reaches underWay := ready.free needed reaches (settles.idle underWay)
  filed loader name underWay plain := by
    rw [settles.alike.files]
    exact ready.filed loader name (settles.idle underWay) plain

theorem Ready.mono (ready : model.Ready id world) (evolves : world.Evolves later) :
    model.Ready id later :=
  ready.of_settles evolves.sound (evolves.regular ready.regularToo) evolves.settles

theorem Ready.of_needs (ready : model.Ready id world) (needs : model.Needs id needed) :
    model.Ready needed world :=
  { ready with free := fun other reaches => ready.free other (.head needs reaches) }

/-- One more definition is under way, of a name that is not needed. -/
theorem Ready.starting (ready : model.Ready id world)
    (others : ∀ needed, Relation.ReflTransGen model.Needs id needed →
      model.title needed ≠ (loader, name))
    (filed : name.toList.head? ≠ some '[' → world.fileFor loader name ≠ .ok none) :
    model.Ready id (world.starting loader name) where
  toComparable := ready.toComparable.starting loader name
  free needed reaches underWay := by
    rcases underWay.of_starting with same | before
    · exact others needed reaches same
    · exact ready.free needed reaches before
  filed other key underWay plain := by
    rw [(alike_starting world loader name).files]
    rcases underWay.of_starting with same | before
    · cases same
      exact filed plain
    · exact ready.filed other key before plain

/-- A class is told by its title, and what it needs does not need it. -/
theorem Founded.title_ne (founded : model.Founded id) (sound : model.Sound)
    (regular : model.Regular) (registered : model.Registered id) (needs : model.Needs id needed)
    {other : ClassId} (reaches : Relation.ReflTransGen model.Needs needed other) :
    model.title other ≠ model.title id := by
  intro same
  obtain ⟨registeredNeeded, declared⟩ := regular.registered_of_needs sound needs
  obtain ⟨registeredToo, _⟩ :=
    regular.registered_of_reaches sound registeredNeeded declared reaches
  obtain ⟨loader, name⟩ := Prod.mk.inj same
  rw [Registered, loader, name, registered] at registeredToo
  cases registeredToo
  exact not_transGen_of_acc founded.acc (.head' needs reaches)

/-! ### Computations that find classes -/

/-- The computation finds a class. -/
def Obtains (world : World) (action : WorldM (Option ClassId)) : Prop :=
  ∃ id, (runFrom world action).1 = .ok (some id)

theorem Obtains.delivers {action : WorldM (Option ClassId)} (obtains : world.Obtains action) :
    world.Delivers action :=
  obtains.imp' some fun _ outcome => outcome

theorem Obtains.required (obtains : world.Obtains (load loader name)) :
    world.Delivers (load.required loader name) := by
  obtain ⟨found, outcome⟩ := obtains
  rw [Delivers, Load.required, runFrom_bind_of_outcome outcome]
  exact ⟨found, rfl⟩

/-- Loading finds a class of the model wherever that can be loaded by a loader of both worlds. -/
def Supplies (model : World) (load : Load) (id : ClassId) : Prop :=
  ∀ loader world, model.Ready id world → model.Shares world loader →
    (model.type id).loader ∈ model.delegates loader →
      world.Obtains (load loader (model.type id).name)

theorem Supplies.required (supplies : model.Supplies load id) (ready : model.Ready id world)
    (shares : model.Shares world loader) (among : (model.type id).loader ∈ model.delegates loader) :
    world.Delivers (load.required loader (model.type id).name) :=
  (supplies loader world ready shares among).required

/-- The class of strings can be loaded. -/
def ReadyForStrings (model : World) (load : Load) (world : World) : Prop :=
  ∃ type, model.findLoaded .bootstrap WellKnown.stringClass = some type ∧
    model.Supplies load type ∧ model.Ready type world

theorem Founded.readyForStrings (founded : model.Founded id)
    (isFile : (model.type id).file? = some file) (linked : (model.type id).linkage? = some linkage)
    (needsString : NeedsString file linkage)
    (supplies : ∀ needed, model.Needs id needed → model.Supplies load needed)
    (ready : ∀ needed, model.Needs id needed → model.Ready needed world) :
    model.ReadyForStrings load world := by
  obtain ⟨type, entry⟩ := founded.exists_strings isFile linked needsString
  have needs : model.Needs id type := .strings isFile linked needsString entry
  exact ⟨type, entry, supplies type needs, ready type needs⟩

theorem requireClassName_of_className? {index : UInt16}
    (named : file.className? index = some name) : file.requireClassName index = .ok name := by
  rw [ClassFile.requireClassName, named]

/-! ### Linking -/

section Linking

/-- What a loader finds by the name of a class that it sees in the model is its twin. -/
theorem twins_of_loaded (ready : model.Ready needed world) (sees : model.Sees loader id)
    (linked : (model.type id).linkage? = some linkage)
    (leads : world.LeadsTo loader (model.type id).name own) : model.Twins world id own := by
  have plain := (ready.regular.entries _ _ _ sees.registered).placed.plain
    (Class.not_isArray_of_linkage? linked)
  exact ready.twins_of_leadsTo (.named plain sees.among sees.registered) leads

variable (finds : load.Finds)
include finds

theorem linkSuperclass_delivers (fits : model.Fits id name file linkage)
    (names : model.Names definer file linkage) (shares : model.Shares world definer)
    (supplies : ∀ supertype ∈ linkage.supertypes, model.Supplies load supertype)
    (ready : ∀ supertype ∈ linkage.supertypes, model.Ready supertype world) :
    world.Delivers (linkSuperclass load definer name file) := by
  unfold linkSuperclass
  cases above : linkage.superclass with
  | none =>
      rw [if_pos (names.root above), if_pos (fits.root.1 above)]
      exact .pure none
  | some superclass =>
      have isAbove := mem_supertypes_of_superclass above
      have named := names.superclass superclass above
      have notRoot : name ≠ WellKnown.objectClass := by
        rw [Ne, ← fits.root, above]
        exact nofun
      have nonzero : file.superClass ≠ 0 := by
        intro zero
        rw [zero] at named
        cases named
      have sees := names.supertypes superclass isAbove
      have ready := ready superclass isAbove
      obtain ⟨linkageAbove, linked⟩ :=
        Option.isSome_iff_exists.1 (fits.linked superclass isAbove)
      dsimp only
      rw [if_neg nonzero, if_neg notRoot]
      refine .bindLinking (requireClassName_of_className? named) ?_
      refine ((supplies superclass isAbove).required ready shares sees.among).bind
        (Load.required_ends finds _ _ ready.soundToo) fun own later evolves leads => ?_
      have later := ready.mono evolves
      have twins := twins_of_loaded later sees linked leads
      have comparable := later.toComparable
      have flags := twins.flags_eq comparable linked
      apply Delivers.bindGet
      rw [Class.isInterface, Class.isFinal, flags, twins.isArray_eq comparable,
        if_neg (Class.not_isArray_of_linkage? linked), ← Class.isInterface, ← Class.isFinal,
        if_neg (fits.superclass superclass above), if_neg (fits.notFinal superclass above)]
      exact .pure _

theorem linkInterfaces_delivers {interfaces : List ClassId} {indices : List UInt16}
    (linked : ∀ interface ∈ interfaces, (model.type interface).linkage?.isSome)
    (isInterface : ∀ interface ∈ interfaces, (model.type interface).isInterface)
    (sees : ∀ interface ∈ interfaces, model.Sees definer interface)
    (named : indices.map file.className? =
      interfaces.map fun interface => some (model.type interface).name)
    (supplies : ∀ interface ∈ interfaces, model.Supplies load interface)
    (ready : ∀ interface ∈ interfaces, model.Ready interface world)
    (shares : model.Shares world definer) (known : Table String ClassId) :
    world.Delivers (linkInterfaces load definer name file indices known) := by
  induction interfaces generalizing indices world known with
  | nil =>
      rw [List.map_nil, List.map_eq_nil_iff] at named
      rw [named]
      exact .pure _
  | cons interface rest inductionHypothesis =>
      cases indices with
      | nil => cases named
      | cons index others =>
          obtain ⟨named, namedRest⟩ := List.cons.inj named
          simp only [List.forall_mem_cons] at linked isInterface sees supplies ready
          obtain ⟨linkageAbove, linkedAbove⟩ := Option.isSome_iff_exists.1 linked.1
          refine .bindLinking (requireClassName_of_className? named) ?_
          refine (supplies.1.required ready.1 shares sees.1.among).bind
            (Load.required_ends finds _ _ ready.1.soundToo) fun own later evolves leads => ?_
          have readyLater := ready.1.mono evolves
          have twins := twins_of_loaded readyLater sees.1 linkedAbove leads
          have comparable := readyLater.toComparable
          have flags := twins.flags_eq comparable linkedAbove
          have isInterfaceToo : ¬ (!(later.type own).isInterface) = true := by
            rw [Class.isInterface, flags, ← Class.isInterface, isInterface.1]
            exact Bool.false_ne_true
          have readyRest (interface : ClassId) (among : interface ∈ rest) :=
            (ready.2 interface among).mono evolves
          apply Delivers.bindGet
          dsimp only
          rw [twins.isArray_eq comparable, if_neg (Class.not_isArray_of_linkage? linkedAbove),
            if_neg isInterfaceToo]
          obtain ⟨found, outcome⟩ := inductionHypothesis linked.2 isInterface.2 sees.2 namedRest
            supplies.2 readyRest (shares.of_alike evolves.settles.alike) ((known.insertAll
              (((later.type own).linkage?.map Linkage.allInterfaces).getD {})).insert
                (model.type interface).name own)
          rw [Delivers, runFrom_bind_of_outcome outcome]
          exact ⟨_, rfl⟩

/-! ### First values -/

/-- A canonical string is there or can be made. -/
theorem intern_delivers {type : ClassId} (text : String)
    (entry : model.findLoaded .bootstrap WellKnown.stringClass = some type)
    (supplies : model.Supplies load type) (ready : model.Ready type world) :
    world.Delivers (load.intern text) := by
  apply Delivers.bindGet
  split
  next known => exact .pure _
  next =>
    obtain ⟨home, named⟩ := Prod.mk.inj (ready.regular.title_of_findLoaded entry)
    have required : world.Delivers (load.required .bootstrap WellKnown.stringClass) := by
      rw [← named]
      exact supplies.required ready ready.bootstrap (home ▸ List.mem_cons_self)
    refine required.bind (Load.required_ends finds _ _ ready.soundToo)
      fun own later evolves leads => ?_
    have entryLater := leads.entry_of_bootstrap evolves.sound (by decide)
    obtain ⟨linkageToo, linked⟩ :=
      Option.isSome_iff_exists.1 (evolves.sound.linked_of_findLoaded (by decide) entryLater)
    refine (allocateInstance_delivers _ linked).bind (allocateInstance_ends own _ evolves.sound)
      fun fresh last _ _ => ?_
    exact ⟨_, rfl⟩

theorem initialValue_delivers {field : Field} {first : FirstValue} (start : world.Sound)
    (known : field.firstValue? file = .ok first)
    (strings : ∀ text, first = .string text → model.ReadyForStrings load world) :
    world.Delivers (initialValue load file field) := by
  rw [initialValue_eq]
  apply Delivers.bindLinking known
  cases first with
  | plain value => exact .pure value
  | string text =>
      obtain ⟨type, entry, supplies, ready⟩ := strings text rfl
      refine (intern_delivers finds text entry supplies ready).bind
        (Load.intern_ends finds text start) fun object later _ _ => ?_
      exact .pure _

theorem linkFields_delivers {members : List (Member FieldFlags)} {layout fields : FieldLayout}
    {static : Array Value} (start : world.Sound)
    (added : FieldLayout.addAll file own name members layout = .ok fields)
    (first : ∀ key slot, fields.static.find? key = some slot →
      ∃ first, slot.field.firstValue? file = .ok first)
    (strings : ∀ key slot text, fields.static.find? key = some slot →
      slot.field.firstValue? file = .ok (.string text) → model.ReadyForStrings load world) :
    world.Delivers (linkFields load file own name members layout static) := by
  induction members generalizing layout static world with
  | nil => exact .pure _
  | cons member rest inductionHypothesis =>
      obtain ⟨field, read, added⟩ := Except.bind_ok added
      obtain ⟨extended, addedFirst, added⟩ := Except.bind_ok added
      refine .bindLinking read (.bindLinking addedFirst ?_)
      split
      next isStatic =>
        have placed : fields.static.find? field.key = some ⟨layout.static.size, field⟩ := by
          apply FieldLayout.find?_static_of_addAll added
          rw [(FieldLayout.add_ok addedFirst).2.2, if_pos isStatic, Table.find?_insert, if_pos rfl]
        obtain ⟨value, known⟩ := first _ _ placed
        have stringsFirst (text : String) (isText : value = .string text) :
            model.ReadyForStrings load world :=
          strings _ _ text placed (isText ▸ known)
        refine (initialValue_delivers finds start known stringsFirst).bind
          (initialValue_ends finds file field start) fun value later evolves _ => ?_
        refine inductionHypothesis evolves.sound added fun key slot text found known => ?_
        obtain ⟨type, entry, supplies, ready⟩ := strings key slot text found known
        exact ⟨type, entry, supplies, ready.mono evolves⟩
      next => exact inductionHypothesis start added strings

end Linking

/-! ### What is put together -/

theorem exists_of_map_ok {ε α β : Type} {outcome : Except ε α} {change : α → β} {result : β}
    (ok : outcome.map change = .ok result) :
    ∃ before, outcome = .ok before ∧ change before = result := by
  cases outcome with
  | error error => cases ok
  | ok before => exact ⟨before, rfl, Except.ok.inj ok⟩

/-- Whose they are does not matter for the values with which static fields start. -/
theorem firstValue?_of_rename_eq {owners ownersToo : ClassId → ClassId}
    {fields layout : FieldLayout} (same : layout.rename ownersToo = fields.rename owners)
    {key : String} {slot : FieldSlot} (found : layout.static.find? key = some slot) :
    ∃ slotToo, fields.static.find? key = some slotToo ∧
      slotToo.field.firstValue? file = slot.field.firstValue? file := by
  have tables := congrArg (fun layout => layout.static.find? key) same
  simp only [FieldLayout.rename, Table.find?_mapValues, found, Option.map_some] at tables
  obtain ⟨slotToo, foundToo, renamed⟩ := Option.map_eq_some_iff.1 tables.symm
  refine ⟨slotToo, foundToo, ?_⟩
  rw [← Field.firstValue?_rename owners, ← Field.firstValue?_rename ownersToo]
  exact congrArg (fun slot => slot.field.firstValue? file) renamed

section Building

variable {above : World} {linkageToo : Linkage} (comparable : model.Comparable world)
variable (fits : model.Fits id name file linkage) (names : model.Names loader file linkage)
variable (superFound : SuperclassFound loader name file linkageToo.superclass above)
variable (found : InterfacesFound loader file file.interfaces
  (above.inheritedInterfaces linkageToo.superclass)
  (linkageToo.interfaces, linkageToo.allInterfaces) world)
variable (evolves : above.Evolves world) (start : above.Sound) (own)
include comparable fits names superFound found evolves start

/-- What was found for a class has the tables of what its model was put together from. -/
theorem sameTables_of_found (supertype : ClassId) (isAbove : supertype ∈ linkage.supertypes)
    (supertypeToo : ClassId) (isAboveToo : supertypeToo ∈ linkageToo.supertypes)
    (title : world.title supertypeToo = model.title supertype) :
    SameTables (fun _ => default) (fun _ => default) (model.type supertype)
      (world.type supertypeToo) := by
  have namesToo := names_of_found superFound found evolves start comparable.regularToo
  have registered := (names.supertypes supertype isAbove).registered
  obtain ⟨_, linked⟩ := Option.isSome_iff_exists.1 (fits.linked supertype isAbove)
  exact Twins.sameTables comparable (fun _ _ _ => rfl)
    (comparable.regular.founded_of_registered registered (Class.not_isArray_of_linkage? linked))
    ⟨registered, (namesToo.supertypes supertypeToo isAboveToo).registered, title⟩

/-- The method tables can be built. -/
theorem exists_methods : ∃ methods, MethodTables.build file own name
    (((linkageToo.superclass.bind fun superclass => (above.type superclass).linkage?).map
      fun linkage => linkage.methods.virtual).getD {})
    ((linkageToo.interfaces.filterMap fun interface => (world.type interface).linkage?).map
      fun linkage => linkage.methods.virtual) = .ok methods := by
  have namesToo := names_of_found superFound found evolves start comparable.regularToo
  have root := superFound.root.trans fits.root.symm
  have owner : (fun _ : ClassId => (default : ClassId)) own = (fun _ => default) id := rfl
  have built := @build_rename_eq _ _ _ id own _ _ _ comparable fits.linked root names namesToo
    _ _ owner (sameTables_of_found comparable fits names superFound found evolves start) name
  rw [fits.methods] at built
  obtain ⟨superVirtual, interfacesVirtual⟩ := virtual_of_found superFound found evolves
  rw [superVirtual, interfacesVirtual]
  obtain ⟨methods, built, _⟩ := exists_of_map_ok built
  exact ⟨methods, built⟩

/-- The fields can be laid out, and the static ones start as those of the model. -/
theorem exists_layout : ∃ layout, FieldLayout.addAll file own name file.fields
    (.inherit
      (((linkageToo.superclass.bind fun superclass => (above.type superclass).linkage?).map
        fun linkage => linkage.fields.slots).getD [])
      ((linkageToo.interfaces.filterMap fun interface => (world.type interface).linkage?).map
        fun linkage => linkage.fields.slots)) = .ok layout ∧
    ∀ key slot, layout.static.find? key = some slot → ∃ slotToo,
      linkage.fields.static.find? key = some slotToo ∧
        slotToo.field.firstValue? file = slot.field.firstValue? file := by
  have namesToo := names_of_found superFound found evolves start comparable.regularToo
  have root := superFound.root.trans fits.root.symm
  have owner : (fun _ : ClassId => (default : ClassId)) own = (fun _ => default) id := rfl
  have added := @addAll_rename_eq _ _ _ id own _ _ _ comparable fits.linked root names namesToo
    _ _ owner (sameTables_of_found comparable fits names superFound found evolves start) name
  rw [fits.fields] at added
  obtain ⟨superSlots, interfacesSlots⟩ := slots_of_found superFound found evolves
  rw [superSlots, interfacesSlots]
  obtain ⟨layout, added, same⟩ := exists_of_map_ok added
  exact ⟨layout, added, fun key slot => firstValue?_of_rename_eq same⟩

end Building

/-- A class of the model is linked as in the model, where all it needs can be loaded. -/
theorem linkDeclared_delivers (finds : load.Finds)
    (linked : (model.type id).linkage? = some linkage)
    (isFile : (model.type id).file? = some file) (founded : model.Founded id)
    (comparable : model.Comparable world) (shares : model.Shares world (model.type id).loader)
    (supplies : ∀ needed, model.Needs id needed → model.Supplies load needed)
    (ready : ∀ needed, model.Needs id needed → model.Ready needed world) :
    world.Delivers (linkDeclared load own (model.type id).loader (model.type id).name file) := by
  have fits := comparable.sound.links id file linkage isFile linked
  have names := comparable.regular.links id file linkage isFile linked
  have above {supertype : ClassId} (isAbove : supertype ∈ linkage.supertypes) :
      model.Needs id supertype := .supertype linked isAbove
  refine (linkSuperclass_delivers finds fits names shares
    (fun _ isAbove => supplies _ (above isAbove)) fun _ isAbove => ready _ (above isAbove)).bind
      (linkSuperclass_ends finds _ _ _ comparable.soundToo)
      fun superclass middle evolves superFound => ?_
  apply Delivers.bindGet
  refine (linkInterfaces_delivers finds
    (fun _ declared => fits.linked _ (mem_supertypes_of_interface declared)) fits.isInterface
    (fun _ declared => names.supertypes _ (mem_supertypes_of_interface declared)) names.declared
    (fun _ declared => supplies _ (above (mem_supertypes_of_interface declared)))
    (fun _ declared => (ready _ (above (mem_supertypes_of_interface declared))).mono evolves)
    (shares.of_alike evolves.settles.alike) _).bind (linkInterfaces_ends finds _ _ _ _ _ evolves.sound)
      fun found beside evolvesBeside interfacesFound => ?_
  obtain ⟨interfaces, allInterfaces⟩ := found
  apply Delivers.bindGet
  -- what has been found so far, without what is yet to be put together
  let linkageToo : Linkage :=
    { superclass, interfaces, height := 0, allInterfaces, methods := {}, fields := {},
      attributes := linkage.attributes }
  have comparable := (comparable.mono evolves).mono evolvesBeside
  have superFoundToo : SuperclassFound _ _ _ linkageToo.superclass middle := superFound
  obtain ⟨methods, built⟩ := exists_methods own comparable fits names superFoundToo interfacesFound
    evolvesBeside evolves.sound
  obtain ⟨layout, added, same⟩ := exists_layout own comparable fits names superFoundToo
    interfacesFound evolvesBeside evolves.sound
  refine .bindLinking built ?_
  have first (key : String) (slot : FieldSlot) (placed : layout.static.find? key = some slot) :
      ∃ first, slot.field.firstValue? file = .ok first := by
    obtain ⟨slotToo, placedToo, sameValue⟩ := same key slot placed
    rw [← sameValue]
    exact fits.firstValues key slotToo placedToo
  have strings (key : String) (slot : FieldSlot) (text : String)
      (placed : layout.static.find? key = some slot)
      (known : slot.field.firstValue? file = .ok (.string text)) :
      model.ReadyForStrings load beside := by
    obtain ⟨slotToo, placedToo, sameValue⟩ := same key slot placed
    have needsString : NeedsString file linkage :=
      ⟨key, slotToo, text, placedToo, sameValue.trans known⟩
    exact founded.readyForStrings isFile linked needsString supplies fun needed needs =>
      ((ready needed needs).mono evolves).mono evolvesBeside
  refine (linkFields_delivers finds comparable.soundToo added first strings).bind
    (linkFields_ends finds _ _ _ _ _ _ comparable.soundToo ⟨rfl, fun _ _ found => by cases found⟩)
      fun result later _ _ => ?_
  exact .bindLinking fits.attributes (.pure _)

end JavaMachine.World
