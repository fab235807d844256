import JavaMachine.Proofs.Computation
import JavaMachine.Proofs.Elements
import JavaMachine.Proofs.Meaning
import JavaMachine.Proofs.Reflection

/-!
# Evolution

A world lasts when it grows into a sound and vetted one, which all work on it does. It is carried on
when besides it retains what names stand for and what constants were resolved to, which work does
that does not interfere with directories, and it develops when mirrors go on standing for classes as
well. It is worked on when besides the contents of fields and arrays are left alone, and it evolves
when no definition is brought to an end that was under way and no constant is resolved. A class that
is defined but not yet entered may be there before its mirrors are in order; the world only unfolds
then.
-/

namespace JavaMachine.World

variable {world middle later : World} {loader other : LoaderId} {name : String}
variable {found : Option ClassId}

/-- The later world is sound and has grown out of the other one, its classes are vetted if they were
before, and no new definition is under way. -/
structure Lasts (world later : World) : Prop where
  sound : later.Sound
  grows : world.Grows later
  vets : world.Vetted → later.Vetted
  idle : ∀ loader name, later.Defining loader name → world.Defining loader name

/-- Besides, names go on standing for what they stood for, and constants for what they have been
resolved to. Classes keep their mirrors. -/
structure Carries (world later : World) : Prop extends world.Lasts later where
  retains : world.Retains later
  regular : world.Regular → later.Regular
  strings : world.StringsKnown → later.StringsKnown
  literals : world.Vetted → world.LiteralsKnown → later.LiteralsKnown
  recollects : world.Versed → world.Recollects later
  keepsMirrors : world.KeepsMirrors later

/-- Besides, mirrors are in order if they were before. -/
structure Develops (world later : World) : Prop extends world.Carries later where
  mirrored : world.Mirrored → later.Mirrored

/-- Besides, fields are left alone and arrays hold nothing that does not suit them. -/
structure Works (world later : World) : Prop extends world.Develops later where
  leaves : world.LeavesContents later

/-- Mirrors apart, the same definitions are under way, and the same constants have been resolved. -/
structure Unfolds (world later : World) : Prop extends world.Carries later where
  leaves : world.LeavesContents later
  settles : world.Settles later
  retains := settles.toRetains
  idle := fun _ _ => settles.idle
  pools : ∀ id kind index, later.resolved? id kind index = world.resolved? id kind index
  literals := fun _ known => known.of_same settles.toRetains fun id => pools id .string
  recollects := fun versed => versed.known.recollects versed.sound settles.toRetains pools

/-- The same with mirrors. -/
structure Evolves (world later : World) : Prop extends world.Unfolds later, world.Works later

/-! ### Loaders after a change -/

theorem loader_modifyDirectory (world : World) (loader other : LoaderId)
    (change : Directory → Directory) :
    (world.modifyDirectory loader change).loader other =
      if loader = other ∧ world.HasLoader other then
        { world.loader other with directory := change (world.loader other).directory }
      else world.loader other := by
  obtain ⟨index⟩ := loader
  obtain ⟨otherIndex⟩ := other
  simp only [World.loader, modifyDirectory, HasLoader, Array.getD_eq_getD_getElem?,
    Array.getElem?_modify, LoaderId.mk.injEq]
  by_cases same : index = otherIndex
  · subst same
    by_cases present : index < world.loaders.size <;> simp [present]
  · simp [same]

@[simp] theorem hasLoader_modifyDirectory {change : Directory → Directory} :
    (world.modifyDirectory loader change).HasLoader other ↔ world.HasLoader other := by
  simp [HasLoader, modifyDirectory]

theorem keepsLoaders_modifyDirectory (world : World) (loader : LoaderId)
    (change : Directory → Directory) :
    world.KeepsLoaders (world.modifyDirectory loader change) where
  size := by simp [modifyDirectory]
  chain other := by
    rw [loader_modifyDirectory]
    split <;> rfl

theorem settled?_modifyDirectory (world : World) (loader other : LoaderId) (name : String)
    (change : Directory → Directory) :
    (world.modifyDirectory loader change).settled? other name =
      if loader = other ∧ world.HasLoader other then
        (change (world.loader other).directory).entries.find? name
      else world.settled? other name := by
  rw [settled?, loader_modifyDirectory]
  split <;> rfl

theorem findLoaded_modifyDirectory (world : World) (loader other : LoaderId) (name : String)
    (change : Directory → Directory) :
    (world.modifyDirectory loader change).findLoaded other name =
      if loader = other ∧ world.HasLoader other then
        (change (world.loader other).directory).find? name
      else world.findLoaded other name := by
  rw [findLoaded, loader_modifyDirectory]
  split <;> rfl

/-- A change of a directory under which no further name comes under way. -/
theorem defining_of_modifyDirectory {change : Directory → Directory}
    (kept : ∀ directory : Directory, ∀ name ∈ (change directory).defining,
      name ∈ directory.defining)
    (underWay : (world.modifyDirectory loader change).Defining other name) :
    world.Defining other name := by
  rw [Defining, loader_modifyDirectory] at underWay
  split at underWay
  · exact kept _ _ underWay
  · exact underWay

/-! ### Changes that leave directories alone -/

/-- Loaders and answers are the same. -/
theorem Settles.of_loaders (usable : world.KeepsUsable later)
    (loaders : later.loaders = world.loaders) (answers : later.answers = world.answers)
    (strings : ∀ text object, world.strings.find? text = some object →
      later.strings.find? text = some object) : world.Settles later := by
  have same (loader : LoaderId) : later.loader loader = world.loader loader := by
    rw [World.loader, loaders, World.loader]
  refine ⟨⟨usable, Nat.le_of_eq (congrArg Array.size loaders.symm), ?_, ?_, strings, ?_, ?_⟩,
    congrArg Array.size loaders, ?_, ?_⟩
  · exact fun loader _ => by rw [same]
  · exact fun loader _ => by rw [same]
  · exact fun loader name found settled => by rw [settled?, same, ← settled, settled?]
  · exact fun place answer given => by rw [answers, given]
  · exact fun loader => by rw [same]
  · exact fun loader name _ => by rw [settled?, same, settled?]

theorem Regular.of_loaders (regular : world.Regular) (sound : world.Sound)
    (retains : world.Retains later) (loaders : later.loaders = world.loaders)
    (answers : later.answers = world.answers)
    (links : ∀ id file linkage, (later.type id).file? = some file →
      (later.type id).linkage? = some linkage →
        (world.type id).file? = some file ∧ (world.type id).linkage? = some linkage ∨
          later.Names (later.type id).loader file linkage)
    (strings : later.StringsKnown) : later.Regular := by
  refine regular.of_changes sound retains ?_ ?_ strings links
    (regular.recalls.of_same sound retains answers)
  · intro loader name id entry
    exact .inl (findLoaded_eq_of_loaders loaders loader name ▸ entry)
  · intro loader name settled
    rw [settled?, World.loader, loaders] at settled
    exact .inl settled

/-- What does not last of classes and objects does not matter. -/
theorem Regular.of_lasting (regular : world.Regular) (sound : world.Sound)
    (lasting : ∀ id, (later.type id).lasting = (world.type id).lasting)
    (objects : world.KeepsObjects later) (loaders : later.loaders = world.loaders)
    (answers : later.answers = world.answers) (strings : later.strings = world.strings) :
    later.Regular := by
  have retains := (Settles.of_loaders (fun id _ => lasting id) loaders answers
    (fun _ _ => strings ▸ id)).toRetains
  refine regular.of_loaders sound retains loaders answers ?_
    (regular.strings.of_same retains objects strings)
  intro id file linkage declared linked
  rw [← Class.lasting_file?, lasting, Class.lasting_file?] at declared
  rw [← Class.lasting_linkage?, lasting, Class.lasting_linkage?] at linked
  exact .inl ⟨declared, linked⟩

theorem Settles.addType (world : World) (type : Class) : world.Settles (world.addType type).2 :=
  .of_loaders (keepsUsable_addType world type) rfl rfl fun _ _ => id

/-- A class comes in without a linkage. -/
theorem Regular.addType (regular : world.Regular) (sound : world.Sound) {type : Class}
    (unlinked : type.linkage? = none) : (world.addType type).2.Regular := by
  have retains := (Settles.addType world type).toRetains
  refine regular.of_loaders sound retains rfl rfl ?_
    (regular.strings.of_same retains (.of_eq rfl) rfl)
  intro id file linkage declared linked
  rw [type_addType] at declared linked
  split at linked
  next =>
    rw [unlinked] at linked
    cases linked
  next old =>
    rw [if_neg old] at declared
    exact .inl ⟨declared, linked⟩

/-- A class comes in without a pool. -/
theorem resolved?_addType {type : Class} (detached : type.pool? = none) (id : ClassId)
    (kind : ConstantKind) (index : UInt16) :
    (world.addType type).2.resolved? id kind index = world.resolved? id kind index := by
  refine resolved?_eq_of_pool ?_ kind index
  rw [type_addType]
  split
  next new => rw [detached, type_eq_default (Nat.le_of_eq new.symm)]; rfl
  next => rfl

theorem Vetted.addType (vetted : world.Vetted) {type : Class}
    (vets : world.Vets world.nextId type) : (world.addType type).2.Vetted := by
  have keeps := keepsUsable_addType world type
  refine vetted.of_changes keeps (.of_eq rfl) (fun id => ?_) rfl
  rw [type_addType]
  split
  next new =>
    have same : id = world.nextId := by rw [nextId, ← new]
    exact .inr (same ▸ vets.mono keeps (.of_eq rfl))
  next => exact .inl rfl

theorem Keeps.settles (keeps : world.Keeps later) : world.Settles later :=
  .of_loaders (fun id _ => keeps.lasting id) keeps.loaders keeps.answers
    (fun _ _ => keeps.strings ▸ id)

theorem Keeps.sound (keeps : world.Keeps later) (sound : world.Sound) : later.Sound := by
  apply sound.of_lasting keeps.size keeps.lasting (.of_eq keeps.loaders) _ keeps.shapes
  intro loader name id entry
  exact .inl (findLoaded_eq_of_loaders keeps.loaders loader name ▸ entry)

theorem Carries.of_keeps (sound : world.Sound) (keeps : world.Keeps later)
    (vets : world.Vetted → later.Vetted)
    (pools : ∀ id kind index, later.resolved? id kind index = world.resolved? id kind index)
    (mirrors : world.KeepsMirrors later) : world.Carries later where
  sound := keeps.sound sound
  grows := keeps.grows
  vets := vets
  retains := keeps.settles.toRetains
  regular regular := regular.of_lasting sound keeps.lasting keeps.objects keeps.loaders
    keeps.answers keeps.strings
  strings known := known.of_same keeps.settles.toRetains keeps.objects keeps.strings
  literals _ known := known.of_same keeps.settles.toRetains fun id => pools id .string
  idle _ _ := keeps.settles.idle
  recollects versed := versed.known.recollects sound keeps.settles.toRetains pools
  keepsMirrors := mirrors

theorem Develops.of_keeps (sound : world.Sound) (keeps : world.Keeps later)
    (vets : world.Vetted → later.Vetted)
    (pools : ∀ id kind index, later.resolved? id kind index = world.resolved? id kind index)
    (mirrors : world.SameMirrors later) : world.Develops later where
  toCarries := .of_keeps sound keeps vets pools mirrors.keepsMirrors
  mirrored before := before.of_lasting keeps.lasting mirrors keeps.objects keeps.loaders

theorem Carries.versed (carries : world.Carries later) (versed : world.Versed) : later.Versed where
  sound := carries.sound
  vetted := carries.vets versed.vetted
  regular := carries.regular versed.regular
  known := (carries.recollects versed).known

theorem Carries.trans (first : world.Carries middle) (second : middle.Carries later) :
    world.Carries later where
  sound := second.sound
  grows := first.grows.trans second.grows
  vets vetted := second.vets (first.vets vetted)
  idle loader name underWay := first.idle loader name (second.idle loader name underWay)
  retains := first.retains.trans second.retains
  regular regular := second.regular (first.regular regular)
  strings known := second.strings (first.strings known)
  literals vetted known := second.literals (first.vets vetted) (first.literals vetted known)
  recollects versed :=
    have ⟨_, remembers⟩ := first.recollects versed
    have ⟨known, remembersToo⟩ := second.recollects (first.versed versed)
    ⟨known, remembers.trans remembersToo⟩
  keepsMirrors := first.keepsMirrors.trans second.keepsMirrors

theorem Develops.trans (first : world.Develops middle) (second : middle.Develops later) :
    world.Develops later where
  toCarries := first.toCarries.trans second.toCarries
  mirrored before := second.mirrored (first.mirrored before)

namespace Works

theorem trans (first : world.Works middle) (second : middle.Works later) : world.Works later where
  toDevelops := first.toDevelops.trans second.toDevelops
  leaves := first.leaves.trans second.leaves first.sound first.vets second.retains
    first.retains.usable first.grows.objects second.grows.objects

instance : IsTrans World Works := ⟨fun _ _ _ => trans⟩

end Works

namespace Unfolds

theorem trans (first : world.Unfolds middle) (second : middle.Unfolds later) :
    world.Unfolds later where
  toCarries := first.toCarries.trans second.toCarries
  leaves := first.leaves.trans second.leaves first.sound first.vets second.retains
    first.retains.usable first.grows.objects second.grows.objects
  settles := first.settles.trans second.settles
  pools id kind index := (second.pools id kind index).trans (first.pools id kind index)

instance : IsTrans World Unfolds := ⟨fun _ _ _ => trans⟩

theorem keepsUsable (unfolds : world.Unfolds later) : world.KeepsUsable later :=
  unfolds.grows.keepsUsable

theorem of_keeps (sound : world.Sound) (keeps : world.Keeps later)
    (vets : world.Vetted → later.Vetted) (leaves : world.LeavesContents later)
    (pools : ∀ id kind index, later.resolved? id kind index = world.resolved? id kind index)
    (mirrors : world.KeepsMirrors later) : world.Unfolds later where
  toCarries := .of_keeps sound keeps vets pools mirrors
  settles := keeps.settles
  leaves := leaves
  pools := pools

end Unfolds

namespace Evolves

theorem refl (sound : world.Sound) : world.Evolves world where
  sound := sound
  grows := .refl world
  vets := id
  regular := id
  strings := id
  settles := .refl world
  leaves := .refl world
  pools _ _ _ := rfl
  keepsMirrors := .refl world
  mirrored := id

theorem trans (first : world.Evolves middle) (second : middle.Evolves later) :
    world.Evolves later where
  toUnfolds := first.toUnfolds.trans second.toUnfolds
  mirrored before := second.mirrored (first.mirrored before)

instance : IsTrans World Evolves := ⟨fun _ _ _ => trans⟩

theorem pristine (evolves : world.Evolves later) {about : ClassId → Prop}
    (pristine : world.Pristine about) : later.Pristine about :=
  pristine.of_leaves evolves.leaves.toLeavesFields evolves.retains

theorem of_keeps (sound : world.Sound) (keeps : world.Keeps later)
    (vets : world.Vetted → later.Vetted) (leaves : world.LeavesContents later)
    (pools : ∀ id kind index, later.resolved? id kind index = world.resolved? id kind index)
    (mirrors : world.SameMirrors later) : world.Evolves later where
  toUnfolds := .of_keeps sound keeps vets leaves pools mirrors.keepsMirrors
  mirrored before := before.of_lasting keeps.lasting mirrors keeps.objects keeps.loaders

/-- Only objects are touched, and what they hold is left alone. -/
theorem of_objects (sound : world.Sound) (keeps : world.Keeps later)
    (objects : world.LeavesObjects later) (classes : later.classes = world.classes)
    (guards : world.Sound → world.Vetted → world.Guarded → later.Guarded) :
    world.Evolves later := by
  have same (id : ClassId) : later.type id = world.type id := by rw [type, classes, type]
  refine of_keeps sound keeps
    (fun vetted => vetted.of_classes classes keeps.objects keeps.answers) ?_
    (fun id => resolved?_eq_of_type (same id)) fun id => congrArg Class.mirror (same id)
  exact ⟨.of_lasting objects keeps.lasting fun id => by rw [same], guards⟩

/-- A canonical string comes in. -/
theorem addString (sound : world.Sound) {type : ClassId} {object : ObjectId} {text : String}
    (entry : world.findLoaded .bootstrap WellKnown.stringClass = some type)
    (carries : (world.object object).lasting = (type, some (.text text)))
    (new : world.strings.find? text = none) :
    world.Evolves { world with strings := world.strings.insert text object } := by
  have kept (other : String) (known : ObjectId) (found : world.strings.find? other = some known) :
      (world.strings.insert text object).find? other = some known := by
    rw [Table.find?_insert, if_neg]
    · exact found
    · intro same
      rw [← same, new] at found
      cases found
  have settles : world.Settles { world with strings := world.strings.insert text object } :=
    .of_loaders (fun _ _ => rfl) rfl rfl kept
  have strings (known : world.StringsKnown) :
      StringsKnown { world with strings := world.strings.insert text object } := by
    intro other own found
    rw [Table.find?_insert] at found
    split at found
    next same =>
      cases found
      exact ⟨type, entry, same ▸ carries⟩
    next => exact known other own found
  exact {
    sound := sound.of_lasting rfl (fun _ => rfl) (.of_eq rfl) (fun _ _ _ => .inl) id
    grows := ⟨Nat.le_refl _, fun _ _ => rfl, fun _ _ => rfl,
      fun _ absent => isFresh_of_absent absent, rfl, .of_eq rfl⟩
    vets := fun vetted => vetted.of_classes rfl (.of_eq rfl) rfl
    settles := settles
    regular := fun regular => regular.of_loaders sound settles.toRetains rfl rfl
      (fun _ _ _ declared linked => .inl ⟨declared, linked⟩) (strings regular.strings)
    strings := strings
    leaves := .of_eq rfl rfl
    pools := fun _ _ _ => rfl
    keepsMirrors := .refl world
    mirrored := fun before => before.of_lasting (fun _ => rfl) (fun _ => rfl) (.of_eq rfl) rfl }

/-- An array class comes in as it is. -/
theorem addType (sound : world.Sound) {type : Class} (isArray : type.isArray)
    (state : type.state = .fullyInitialized) (mirror : type.mirror = none)
    (home : world.HasLoader type.loader) (titled : type.Titled)
    (vets : world.Vetted → world.Vets world.nextId type) :
    world.Evolves (world.addType type).2 where
  sound := sound.addType (Class.linkage?_of_isArray isArray) home (Class.heads_of_isArray isArray)
    fun _ => titled
  grows := by
    constructor
    · simp
    · intro id present
      rw [type_addType, if_neg (Nat.ne_of_lt present)]
    · intro id present
      rw [type_addType, if_neg (Nat.ne_of_lt present)]
    · intro id absent
      rw [type_addType]
      split
      · exact .array state isArray
      · exact isFresh_of_absent absent
    · rfl
    · exact .of_eq rfl
  vets vetted := vetted.addType (vets vetted)
  settles := .addType world type
  regular regular := regular.addType sound (Class.linkage?_of_isArray isArray)
  strings known := known.of_same (Settles.addType world type).toRetains (.of_eq rfl) rfl
  leaves := .of_objects (.addType (Class.linkage?_of_isArray isArray))
    (keepsUsable_addType world type) rfl
  pools := resolved?_addType (Class.pool?_of_isArray isArray)
  keepsMirrors := (sameMirrors_addType mirror).keepsMirrors
  mirrored before := before.addType mirror fun _ isClass => by
    have named := (titled.1 isArray).head?
    rw [isClass.name] at named
    exact absurd named (by decide)

end Evolves

/-! ### Changes of directories -/

theorem grows_modifyDirectory (world : World) (loader : LoaderId)
    (change : Directory → Directory) : world.Grows (world.modifyDirectory loader change) :=
  ⟨Nat.le_refl _, fun _ _ => rfl, fun _ _ => rfl, fun _ absent => isFresh_of_absent absent, rfl,
    .of_eq rfl⟩

theorem Vetted.modifyDirectory (vetted : world.Vetted) (loader : LoaderId)
    (change : Directory → Directory) : (world.modifyDirectory loader change).Vetted :=
  vetted.of_classes rfl (.of_eq rfl) rfl

/-- A change of a directory that adds no name but those of usable classes. -/
theorem Sound.modifyDirectory (sound : world.Sound) {change : Directory → Directory}
    (directories : ∀ name id, (change (world.loader loader).directory).find? name = some id →
      world.findLoaded loader name = some id ∨
        (world.type id).isUsable ∧ (world.type id).name = name) :
    (world.modifyDirectory loader change).Sound := by
  refine sound.of_lasting rfl (fun _ => rfl) (keepsLoaders_modifyDirectory world loader change) ?_
    fun shaped => shaped
  intro other name id entry
  rw [findLoaded_modifyDirectory] at entry
  split at entry
  next same =>
    obtain ⟨same, _⟩ := same
    subst same
    exact directories name id entry
  next => exact .inl entry

/-- A change of a directory in which no name is settled otherwise. -/
theorem Retains.modifyDirectory {change : Directory → Directory}
    (kept : ∀ name found, world.settled? loader name = some found →
      (change (world.loader loader).directory).entries.find? name = some found) :
    world.Retains (world.modifyDirectory loader change) where
  usable _ _ := rfl
  loaders := Nat.le_of_eq (keepsLoaders_modifyDirectory world loader change).size.symm
  chain other _ := (keepsLoaders_modifyDirectory world loader change).chain other
  sources other _ := by
    rw [loader_modifyDirectory]
    split <;> rfl
  strings _ _ := id
  settled other name found settled := by
    rw [settled?_modifyDirectory]
    split
    next same => exact same.1 ▸ kept name found (same.1 ▸ settled)
    next => exact settled
  answers _ _ := id

/-- Such a change keeps a world regular if the new entries are in their places and there is no file
for a name that is settled to stand for no class. -/
theorem Regular.modifyDirectory (regular : world.Regular) (sound : world.Sound)
    {change : Directory → Directory}
    (kept : ∀ name found, world.settled? loader name = some found →
      (change (world.loader loader).directory).entries.find? name = some found)
    (entries : ∀ name id, (change (world.loader loader).directory).find? name = some id →
      world.findLoaded loader name = some id ∨
        (world.type id).isUsable ∧ world.Stands loader name id)
    (absent : ∀ name, (change (world.loader loader).directory).entries.find? name = some none →
      world.settled? loader name = some none ∨ world.Absent loader name) :
    (world.modifyDirectory loader change).Regular := by
  have retains := Retains.modifyDirectory kept
  refine regular.of_changes sound retains ?_ ?_ (regular.strings.of_same retains (.of_eq rfl) rfl)
    (fun _ _ _ declared linked => .inl ⟨declared, linked⟩)
    (regular.recalls.of_same sound retains rfl)
  · intro other name id entry
    rw [findLoaded_modifyDirectory] at entry
    split at entry
    next same =>
      obtain ⟨same, present⟩ := same
      subst same
      rcases entries name id entry with known | ⟨usable, stands⟩
      · exact .inl known
      · exact .inr (stands.mono sound retains usable present)
    next => exact .inl entry
  · intro other name settled
    rw [settled?_modifyDirectory] at settled
    split at settled
    next same =>
      obtain ⟨same, present⟩ := same
      subst same
      exact (absent name settled).imp_right fun absent => absent.mono retains present
    next => exact .inl settled

/-! ### Definitions -/

/-- The world while the definition of a name is under way. -/
def starting (world : World) (loader : LoaderId) (name : String) : World :=
  world.modifyDirectory loader fun directory => directory.start name

/-- The world after a definition has failed. -/
def stopping (world : World) (loader : LoaderId) (name : String) : World :=
  world.modifyDirectory loader fun directory => directory.stop name

/-- The world after a definition has come to its end. -/
def settling (world : World) (loader : LoaderId) (name : String) (found : Option ClassId) : World :=
  world.modifyDirectory loader fun directory => (directory.stop name).settle name found

@[simp] theorem settled?_starting (world : World) (loader other : LoaderId) (name key : String) :
    (world.starting loader name).settled? other key = world.settled? other key := by
  rw [starting, settled?_modifyDirectory]
  split <;> rfl

@[simp] theorem settled?_stopping (world : World) (loader other : LoaderId) (name key : String) :
    (world.stopping loader name).settled? other key = world.settled? other key := by
  rw [stopping, settled?_modifyDirectory]
  split <;> rfl

theorem Retains.starting (world : World) (loader : LoaderId) (name : String) :
    world.Retains (world.starting loader name) :=
  Retains.modifyDirectory fun _ _ settled => settled

theorem defining_starting (world : World) (loader other : LoaderId) (name : String) :
    ((world.starting loader name).loader other).directory.defining =
      if loader = other ∧ world.HasLoader other then
        name :: (world.loader other).directory.defining
      else (world.loader other).directory.defining := by
  rw [starting, loader_modifyDirectory]
  split <;> rfl

theorem Defining.starting (underWay : world.Defining other name) (key : String) :
    (world.starting loader key).Defining other name := by
  rw [Defining, defining_starting]
  split
  · exact List.mem_cons_of_mem _ underWay
  · exact underWay

theorem Defining.of_starting {key : String}
    (underWay : (world.starting loader name).Defining other key) :
    (other, key) = (loader, name) ∨ world.Defining other key := by
  rw [Defining, defining_starting] at underWay
  split at underWay
  next here =>
    exact (List.mem_cons.1 underWay).imp_left fun same => Prod.ext here.1.symm same
  next => exact .inr underWay

theorem Sound.starting (sound : world.Sound) (loader : LoaderId) (name : String) :
    (world.starting loader name).Sound :=
  sound.modifyDirectory fun _ _ => .inl

theorem Regular.starting (regular : world.Regular) (sound : world.Sound) (loader : LoaderId)
    (name : String) : (world.starting loader name).Regular :=
  regular.modifyDirectory sound (fun _ _ settled => settled) (fun _ _ => .inl) fun _ => .inl

section Definition

variable {defined : World}

/-- While a definition is under way nobody else settles the name. -/
theorem settled?_defined (settles : (world.starting loader name).Settles defined)
    (undecided : world.settled? loader name = none) : defined.settled? loader name = none := by
  by_cases present : world.HasLoader loader
  · have underWay : (world.starting loader name).Defining loader name := by
      rw [Defining, defining_starting, if_pos ⟨rfl, present⟩]
      exact List.mem_cons_self
    rw [settles.undecided loader name underWay, settled?_starting, undecided]
  · apply settled?_eq_none
    rw [settles.hasLoader_iff]
    exact fun here => present (hasLoader_modifyDirectory.1 here)

/-- What was absent when a definition began still is. -/
theorem Absent.of_starting (absent : world.Absent loader name)
    (evolves : (world.starting loader name).Unfolds defined) : defined.Absent loader name := by
  by_cases present : world.HasLoader loader
  · exact absent.mono ((Retains.starting world loader name).trans evolves.retains) present
  · have absentStill := mt evolves.settles.hasLoader_iff.1
      (mt hasLoader_modifyDirectory.1 present)
    refine ⟨absent.plain, ?_⟩
    rw [fileFor, loader_eq_default absentStill]
    rfl

section Ending

variable {change : Directory → Directory} (undecided : world.settled? loader name = none)
  (others : ∀ directory other, other ≠ name →
    (change directory).entries.find? other = directory.entries.find? other)
include undecided others

section Settling

variable (settles : (world.starting loader name).Settles defined)
include settles

/-- The end of a definition leaves what was settled meanwhile. -/
theorem find?_of_settled? (other : String) (found : Option ClassId)
    (settled : defined.settled? loader other = some found) :
    (change (defined.loader loader).directory).entries.find? other = some found := by
  have distinct : other ≠ name := by
    intro same
    rw [same, settled?_defined settles undecided] at settled
    cases settled
  rw [others _ _ distinct]
  exact settled

theorem Settles.of_definition (idle : ¬ world.Defining loader name)
    (defining : ∀ directory, (change directory).defining = directory.defining.erase name) :
    world.Settles (defined.modifyDirectory loader change) := by
  have retains := (Retains.starting world loader name).trans settles.toRetains
  have kept := Retains.modifyDirectory (find?_of_settled? undecided others settles)
  refine ⟨retains.trans kept, ?_, ?_, ?_⟩
  · simp [World.modifyDirectory, settles.size, starting]
  · intro other
    rw [loader_modifyDirectory]
    split
    next here =>
      have present : world.HasLoader other :=
        hasLoader_modifyDirectory.1 (settles.hasLoader_iff.1 here.2)
      rw [defining, settles.defining, defining_starting, if_pos ⟨here.1, present⟩,
        List.erase_cons_head]
    next elsewhere =>
      rw [settles.defining, defining_starting, if_neg]
      intro here
      exact elsewhere ⟨here.1, retains.hasLoader here.2⟩
  · intro other key underWay
    have same := settles.undecided other key (underWay.starting name)
    rw [settled?_starting] at same
    rw [settled?_modifyDirectory]
    split
    next here =>
      have distinct : key ≠ name := by
        intro equal
        exact idle (here.1 ▸ equal ▸ underWay)
      rw [others _ _ distinct]
      exact same
    next => exact same

end Settling

variable (evolves : (world.starting loader name).Unfolds defined)
  (idle : ¬ world.Defining loader name)
  (defining : ∀ directory, (change directory).defining = directory.defining.erase name)
include evolves idle defining

/-- The end of a definition, which may settle the name. -/
theorem Unfolds.of_definition (sound : world.Sound)
    (entry : ∀ id, (change (defined.loader loader).directory).find? name = some id →
      defined.findLoaded loader name = some id ∨
        ((defined.type id).isUsable ∧ (defined.type id).name = name) ∧
          (world.Regular → defined.Stands loader name id))
    (absent : (change (defined.loader loader).directory).entries.find? name = some none →
      defined.settled? loader name = some none ∨ world.Absent loader name) :
    world.Unfolds (defined.modifyDirectory loader change) := by
  have entries (other : String) (id : ClassId)
      (found : (change (defined.loader loader).directory).find? other = some id) :
      defined.findLoaded loader other = some id ∨
        ((defined.type id).isUsable ∧ (defined.type id).name = other) ∧
          (world.Regular → defined.Stands loader other id) := by
    by_cases same : other = name
    · subst same
      exact entry id found
    · rw [Directory.find?, others _ _ same] at found
      exact .inl found
  have retains := (Retains.starting world loader name).trans evolves.retains
  have absences (other : String)
      (settled : (change (defined.loader loader).directory).entries.find? other = some none) :
      defined.settled? loader other = some none ∨ defined.Absent loader other := by
    by_cases same : other = name
    · subst same
      exact (absent settled).imp_right (·.of_starting evolves)
    · rw [others _ _ same] at settled
      exact .inl settled
  have settles := Settles.of_definition undecided others evolves.settles idle defining
  exact {
    sound := evolves.sound.modifyDirectory fun other id found =>
      (entries other id found).imp_right And.left
    grows := ((grows_modifyDirectory world loader _).trans evolves.grows).trans
      (grows_modifyDirectory defined loader change)
    vets := fun vetted => (evolves.vets (vetted.modifyDirectory loader _)).modifyDirectory loader _
    settles := settles
    regular := fun regular => (evolves.regular (regular.starting sound loader name)).modifyDirectory
      evolves.sound (find?_of_settled? undecided others evolves.settles)
      (fun other id found => (entries other id found).imp_right fun enters =>
        ⟨enters.1.1, enters.2 regular⟩) absences
    strings := fun known => by
      have started := known.of_same (.starting world loader name) (.of_eq rfl) rfl
      exact (evolves.strings started).of_same
        (.modifyDirectory (find?_of_settled? undecided others evolves.settles)) (.of_eq rfl) rfl
    leaves := by
      have startLeaves : world.LeavesContents (world.starting loader name) := .of_eq rfl rfl
      have start : (world.starting loader name).Sound := sound.starting loader name
      have leaves := startLeaves.trans evolves.leaves start
        (fun vetted => vetted.modifyDirectory loader _) evolves.retains (fun _ _ => rfl)
        (.of_eq rfl) evolves.grows.objects
      exact leaves.trans (.of_eq rfl rfl) evolves.sound
        (fun vetted => evolves.vets (vetted.modifyDirectory loader _)) (.modifyDirectory
        (find?_of_settled? undecided others evolves.settles)) retains.usable
        ((grows_modifyDirectory world loader _).trans evolves.grows).objects (.of_eq rfl)
    pools := fun id kind index => evolves.pools id kind index
    keepsMirrors := evolves.keepsMirrors }

end Ending

theorem Unfolds.stopping (unfolds : (world.starting loader name).Unfolds defined)
    (sound : world.Sound) (undecided : world.settled? loader name = none)
    (idle : ¬ world.Defining loader name) : world.Unfolds (defined.stopping loader name) :=
  unfolds.of_definition undecided (fun _ _ _ => rfl) idle (fun _ => rfl) sound (fun _ => .inl) .inl

theorem Unfolds.settling (unfolds : (world.starting loader name).Unfolds defined)
    (sound : world.Sound) (undecided : world.settled? loader name = none)
    (idle : ¬ world.Defining loader name) (enters : ∀ id, found = some id →
      ((defined.type id).isUsable ∧ (defined.type id).name = name) ∧
        (world.Regular → defined.Stands loader name id))
    (absent : found = none → world.Absent loader name) :
    world.Unfolds (defined.settling loader name found) := by
  refine unfolds.of_definition undecided ?_ idle (fun _ => rfl) sound ?_ ?_
  · intro directory other distinct
    simp [Directory.settle, Directory.stop, distinct.symm]
  · intro id settled
    refine .inr (enters id ?_)
    simpa [Directory.find?, Directory.settle] using settled
  · intro settled
    refine .inr (absent ?_)
    simpa [Directory.settle] using settled

end Definition

/-! ### Mirrors and definitions -/

theorem Mirrored.of_settled? (mirrored : world.Mirrored) (classes : later.classes = world.classes)
    (objects : later.objects = world.objects)
    (settled : ∀ name, later.settled? .bootstrap name = world.settled? .bootstrap name) :
    later.Mirrored := by
  have same (id : ClassId) : later.type id = world.type id := by rw [type, classes, type]
  refine mirrored.of_same (fun id => by rw [same]) (.of_eq objects) (fun name => ?_)
    fun id free usable isClass => ⟨free, same id ▸ usable, same id ▸ isClass⟩
  rw [findLoaded_eq_getD, settled, findLoaded_eq_getD]

theorem Mirrored.starting (mirrored : world.Mirrored) (loader : LoaderId) (name : String) :
    (world.starting loader name).Mirrored :=
  mirrored.of_settled? rfl rfl fun other => settled?_starting world loader .bootstrap name other

theorem Mirrored.stopping (mirrored : world.Mirrored) (loader : LoaderId) (name : String) :
    (world.stopping loader name).Mirrored :=
  mirrored.of_settled? rfl rfl fun other => settled?_stopping world loader .bootstrap name other

theorem findLoaded_settling (world : World) (loader other : LoaderId) (name key : String)
    (found : Option ClassId) : (world.settling loader name found).findLoaded other key =
      if (loader = other ∧ world.HasLoader other) ∧ name = key then found
      else world.findLoaded other key := by
  rw [settling, findLoaded_modifyDirectory]
  by_cases here : loader = other ∧ world.HasLoader other
  · rw [if_pos here]
    by_cases same : name = key
    · simp [here, same, Directory.find?, Directory.settle]
    · simp [same, findLoaded, Directory.find?, Directory.settle, Directory.stop]
  · rw [if_neg here, if_neg fun both => here both.1]

/-- A name is settled, not to stand for the class of which mirrors are instances. What is entered
has a mirror if there are any. -/
theorem Mirrored.settling (mirrored : world.Mirrored)
    (undecided : world.settled? loader name = none)
    (other : name = WellKnown.classClass → loader = .bootstrap → found = none)
    (shown : ∀ id, found = some id → loader = .bootstrap → world.mirrorClass?.isSome →
      (world.type id).mirror.isSome) : (world.settling loader name found).Mirrored := by
  have unknown : world.findLoaded loader name = none := by
    rw [findLoaded_eq_getD, undecided]
    rfl
  have same : (world.settling loader name found).mirrorClass? = world.mirrorClass? := by
    rw [mirrorClass?, findLoaded_settling]
    split
    next both =>
      obtain ⟨⟨rfl, _⟩, rfl⟩ := both
      rw [other rfl rfl, mirrorClass?, unknown]
    next => rfl
  constructor
  · rw [same]
    exact mirrored.shows
  · rw [same]
    intro has key id entry
    rw [findLoaded_settling] at entry
    split at entry
    next both => exact shown id entry both.1.1 has
    next => exact mirrored.complete has key id entry
  · rw [same]
    exact mirrored.entered

end JavaMachine.World
