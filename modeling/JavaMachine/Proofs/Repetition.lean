import JavaMachine.Proofs.Declarations
import JavaMachine.Proofs.Portrait
import JavaMachine.Proofs.Requests
import JavaMachine.Proofs.Sparing

/-!
# Members that are declared twice

Tables refuse a member under a key that is taken already. Where names are without blanks that is so
only if the class declares two members of one name and one descriptor, or if it declares a field and
a class of the same name is above it. The latter does not happen while a loader defines a class:
neither the loader nor one that it asks leads to another class by the name.
-/

namespace JavaMachine

section Signatures

variable {Flags : Type} {file : ClassFile} {member : Member Flags} {members : List (Member Flags)}
variable {name descriptor : String}

/-- The name and the descriptor of a member, if both stand in the file. -/
def ClassFile.signature? (file : ClassFile) (member : Member Flags) : Option (String × String) := do
  return (← file.text? member.name, ← file.text? member.descriptor)

/-- No two of the members have the same name and the same descriptor. -/
def ClassFile.Distinguishes (file : ClassFile) (members : List (Member Flags)) : Prop :=
  (members.filterMap file.signature?).Nodup

instance : Decidable (file.Distinguishes members) := inferInstanceAs (Decidable (List.Nodup _))

theorem ClassFile.signature?_of_texts (named : file.requireText member.name = .ok name)
    (described : file.requireText member.descriptor = .ok descriptor) :
    file.signature? member = some (name, descriptor) := by
  rw [signature?, requireText_eq_ok.1 named, requireText_eq_ok.1 described]
  rfl

/-- None of the others has the name and the descriptor of the first one. -/
theorem ClassFile.Distinguishes.head (distinct : file.Distinguishes (member :: members))
    (own : file.signature? member = some (name, descriptor)) :
    ∀ other ∈ members, file.signature? other ≠ some (name, descriptor) := by
  intro other among same
  rw [Distinguishes, List.filterMap_cons, own] at distinct
  exact (List.nodup_cons.1 distinct).1 (List.mem_filterMap.2 ⟨other, among, same⟩)

theorem ClassFile.Distinguishes.tail (distinct : file.Distinguishes (member :: members)) :
    file.Distinguishes members := by
  rw [Distinguishes, List.filterMap_cons] at distinct
  split at distinct
  · exact distinct
  · exact (List.nodup_cons.1 distinct).2

end Signatures

/-! ### Tables -/

section Tables

variable {file : ClassFile} {owner : ClassId} {className : String}

theorem Method.signature?_of_ofMember {member : Member MethodFlags} {method : Method}
    (read : ofMember file owner className member = .ok method) :
    file.signature? member = some (method.name, method.descriptor) := by
  obtain ⟨named, described, _⟩ := ofMember_ok read
  exact ClassFile.signature?_of_texts named described

theorem Field.signature?_of_ofMember {member : Member FieldFlags} {field : Field}
    (read : ofMember file owner className member = .ok field) :
    file.signature? member = some (field.name, field.descriptor) := by
  obtain ⟨named, described⟩ := ofMember_ok read
  exact ClassFile.signature?_of_texts named described

/-- Methods that differ in their names or descriptors are entered unless something else is wrong. -/
theorem MethodTables.enterAll_ordinary {members : List (Member MethodFlags)} {tables : MethodTables}
    (distinct : file.Distinguishes members)
    (plain : ∀ member ∈ members, ∀ method,
      Method.ofMember file owner className member = .ok method → ' ' ∉ method.name.toList)
    (fresh : ∀ member ∈ members, ∀ method,
      Method.ofMember file owner className member = .ok method →
        tables.declared.find? method.key = none) :
    FailsOrdinarily (enterAll file owner className members tables) := by
  induction members generalizing tables with
  | nil => exact .ok tables
  | cons member rest inductionHypothesis =>
      refine .bind (Method.ofMember_ordinary file owner className member) fun method read => ?_
      have here := List.mem_cons_self (a := member) (l := rest)
      refine .bind (fun cause refused => ?_) fun middle entered => ?_
      · rcases enter_error refused with isOrdinary | ⟨_, known⟩
        · exact isOrdinary
        · rw [Table.contains, fresh member here method read] at known
          cases known
      refine inductionHypothesis distinct.tail
        (fun other among => plain other (List.mem_cons_of_mem _ among))
        fun other among methodToo readToo => ?_
      have further := List.mem_cons_of_mem member among
      rw [(enter_ok entered).2.1, Table.find?_insert, if_neg,
        fresh other further methodToo readToo]
      intro same
      obtain ⟨names, descriptors⟩ := methodKey_eq_of_names same (plain member here method read)
        (plain other further methodToo readToo)
      refine distinct.head (Method.signature?_of_ofMember read) other among ?_
      rw [Method.signature?_of_ofMember readToo, names, descriptors]

/-- Fields that differ in their names or descriptors are added to a layout that has none of them,
unless something else is wrong. -/
theorem FieldLayout.addAll_ordinary {members : List (Member FieldFlags)} {layout : FieldLayout}
    (distinct : file.Distinguishes members) (unbroken : ' ' ∉ className.toList)
    (plain : ∀ member ∈ members, ∀ field,
      Field.ofMember file owner className member = .ok field → ' ' ∉ field.name.toList)
    (fresh : ∀ member ∈ members, ∀ field,
      Field.ofMember file owner className member = .ok field → layout.find? field.key = none) :
    FailsOrdinarily (addAll file owner className members layout) := by
  induction members generalizing layout with
  | nil => exact .ok layout
  | cons member rest inductionHypothesis =>
      refine .bind (Field.ofMember_ordinary file owner className member) fun field read => ?_
      have here := List.mem_cons_self (a := member) (l := rest)
      refine .bind (fun cause refused => ?_) fun middle added => ?_
      · have absent := fresh member here field read
        rw [find?, Option.or_eq_none_iff] at absent
        have known := (add_error refused).2
        simp [absent, Table.contains] at known
      refine inductionHypothesis distinct.tail
        (fun other among => plain other (List.mem_cons_of_mem _ among))
        fun other among fieldToo readToo => ?_
      have further := List.mem_cons_of_mem member among
      rw [← Option.map_eq_none_iff, (find?_of_add added).2, if_neg,
        fresh other further fieldToo readToo]
      · rfl
      intro same
      rw [Field.key, Field.key, (Field.ofMember_owner read).2,
        (Field.ofMember_owner readToo).2] at same
      obtain ⟨_, names, descriptors⟩ := fieldKey_eq_of_names same unbroken unbroken
        (plain member here field read) (plain other further fieldToo readToo)
      refine distinct.head (Field.signature?_of_ofMember read) other among ?_
      rw [Field.signature?_of_ofMember readToo, names, descriptors]

/-- The methods of a file whose names are without blanks are refused only if two have one name and
one descriptor. -/
theorem ClassFile.repeats_of_build {inherited : Table String Method}
    {interfaces : List (Table String Method)} {key : String} (plain : file.isPlain)
    (refused : MethodTables.build file owner className inherited interfaces =
      .error (.duplicateMethod className key)) : ¬ file.Distinguishes file.methods := by
  intro distinct
  have isOrdinary : FailsOrdinarily
      (MethodTables.build file owner className inherited interfaces) :=
    .bind (MethodTables.enterAll_ordinary distinct
      (fun _ listed _ read => not_mem_name_method plain listed read) fun _ _ _ _ => rfl)
      fun _ _ => .ok _
  exact isOrdinary _ refused

end Tables

/-- A source in memory has no blanks in the names of classes and of their members. -/
def Source.isPlain : Source → Bool
  | memory classes => classes.entries.all fun (name, file) =>
      !name.toList.contains ' ' && file.isPlain
  | _ => false

namespace World

variable {model world later : World} {base loader definer : LoaderId} {name key : String}
variable {file : ClassFile} {id above : ClassId}

/-! ### Files without blanks -/

/-- Neither in the names of classes for which loaders have files are there blanks nor in those of
the members in these. -/
def PlainFiles (world : World) : Prop :=
  ∀ loader name file, world.fileFor loader name = .ok (some file) →
    ' ' ∉ name.toList ∧ file.isPlain

theorem PlainFiles.of_alike (plain : model.PlainFiles) (alike : model.Alike world) :
    world.PlainFiles := by
  intro loader name file found
  rw [alike.files] at found
  exact plain loader name file found

/-- Files in memory have no blanks if none of those files has. -/
theorem plainFiles_of_sources
    (plain : ∀ loader ∈ world.loaders, ∀ source ∈ loader.sources, source.isPlain) :
    world.PlainFiles := by
  intro loader name file found
  obtain ⟨source, among, has⟩ := Source.exists_of_findFirst? found
  have present := hasLoader_of_fileFor found
  rw [World.loader, Array.getD_eq_getD_getElem?, Array.getElem?_eq_getElem present] at among
  have known := plain _ (Array.getElem_mem present) source among
  cases source with
  | memory classes =>
      have listed := Table.find?_eq_some.1 (Except.ok.inj has)
      simpa using List.all_eq_true.1 known _ listed
  | directory | archive => cases known

/-- Classes that have been entered are defined by the files of loaders. -/
theorem Regular.plain_of_registered (regular : world.Regular) (plain : world.PlainFiles)
    (registered : world.Registered id) (declared : ¬ (world.type id).isArray) :
    world.Plain id := by
  have unbracketed := (regular.entries _ _ _ registered).placed.plain declared
  obtain ⟨file, topmost, isFile⟩ :=
    regular.topmost_of_findLoaded unbracketed List.mem_cons_self registered
  obtain ⟨unbroken, isPlain⟩ := plain _ _ _ topmost.has
  refine plain_of_file unbroken fun own isFileToo => ?_
  cases isFile.symm.trans isFileToo
  exact isPlain

/-! ### While a class is defined -/

/-- While a loader defines a class it sees no class of that name. -/
theorem Opens.name_ne {type : Class} (opens : world.Opens loader name definer file)
    (evolves : (world.opening definer name type).Evolves later) (sees : later.Sees definer above) :
    (later.type above).name ≠ name := by
  intro same
  have settles := (Settles.addType (world.starting definer name) type).trans evolves.settles
  have present := hasLoader_of_fileFor opens.found
  have registered := sees.registered
  rw [Registered, same, findLoaded_eq_some] at registered
  have among := sees.among
  rw [settles.delegates_eq, (alike_starting world definer name).delegates] at among
  -- nobody settles the name for the loader meanwhile, and those above have looked in vain
  rcases List.mem_cons.1 among with own | asked
  · have underWay : (world.starting definer name).Defining definer name := by
      rw [Defining, defining_starting, if_pos ⟨rfl, present⟩]
      exact List.mem_cons_self
    rw [own, settles.undecided definer name underWay, settled?_starting, opens.undecided]
      at registered
    cases registered
  · have settled := settles.settled _ name none
      ((settled?_starting ..).trans (opens.above _ asked))
    cases settled.symm.trans registered

/-- What is found in the layout above is declared by a class that the loader sees. -/
theorem FoundAbove.declares_of_find? {superclass : Option ClassId} {interfaces : List ClassId}
    {slot : FieldSlot} (found : FoundAbove definer (superclass.toList ++ interfaces) later)
    (sound : later.Sound) (regular : later.Regular)
    (known : (later.layoutAbove superclass interfaces).find? key = some slot) :
    slot.field.key = key ∧ ∃ above, later.Sees definer above ∧ ¬ (later.type above).isArray ∧
      later.DeclaresField above slot.field := by
  obtain ⟨sameKey, supertype, isSupertype, other, among, same⟩ := exists_of_layoutAbove known
  obtain ⟨linkage, linked⟩ := Option.isSome_iff_exists.1 (found.linked supertype isSupertype)
  obtain ⟨_, leads⟩ := found.leads supertype isSupertype
  have sees := (regular.sees_of_leadsTo leads (Class.not_isArray_of_linkage? linked)).1
  obtain ⟨_, above, reaches, declares⟩ :=
    sound.declares_of_find? ((sound.lawful_fields supertype).find?_of_mem among)
  obtain ⟨_, linkedAbove⟩ := sound.reaches_linked ⟨linkage, linked⟩ reaches
  exact ⟨sameKey, above, regular.sees_of_reaches sound sees reaches,
    Class.not_isArray_of_linkage? linkedAbove, same ▸ declares⟩

/-- The fields of a class that a loader defines are refused only if two have one name and one
descriptor. -/
theorem Opens.repeats_of_addAll {type : Class} {superclass : Option ClassId}
    {interfaces : List ClassId} (opens : world.Opens loader name definer file)
    (plain : world.PlainFiles) (evolves : (world.opening definer name type).Evolves later)
    (regular : later.Regular) (found : FoundAbove definer (superclass.toList ++ interfaces) later)
    (refused : FieldLayout.addAll file id name file.fields
      (later.layoutAbove superclass interfaces) = .error (.duplicateField name key)) :
    ¬ file.Distinguishes file.fields := by
  intro distinct
  obtain ⟨unbroken, isPlain⟩ := plain _ _ _ opens.found
  have plainToo := plain.of_alike ((alike_opening world definer name type).trans
    evolves.settles.alike)
  refine FieldLayout.addAll_ordinary distinct unbroken
    (fun _ listed _ read => ClassFile.not_mem_name_field isPlain listed read)
    (fun member listed field read => ?_) _ refused
  by_contra known
  obtain ⟨slot, known⟩ := Option.ne_none_iff_exists'.1 known
  obtain ⟨sameKey, above, sees, declared, declares⟩ :=
    found.declares_of_find? evolves.sound regular known
  have plainAbove := regular.plain_of_registered plainToo sees.registered declared
  rw [Field.key, Field.key, declares.owner.2, (Field.ofMember_owner read).2] at sameKey
  obtain ⟨owners, _⟩ := fieldKey_eq_of_names sameKey plainAbove.name unbroken
    (plainAbove.fields _ declares) (ClassFile.not_mem_name_field isPlain listed read)
  exact opens.name_ne evolves sees owners

/-! ### Loading -/

/-- A method is said to be declared twice only if a file for the class declares two methods of one
name and one descriptor, or has blanks in names. -/
def Repeats (world : World) (error : Error) : Prop :=
  ∀ name key, error = .linkage (.duplicateMethod name key) →
    ∃ definer file, world.fileFor definer name = .ok (some file) ∧
      (file.isPlain → ¬ file.Distinguishes file.methods)

theorem repeats_justifies (model : World) :
    Justifies model.Repeats fun _ _ world => world.Sound ∧ model.Alike world where
  ordinary error isOrdinary name key same := by
    subst same
    exact isOrdinary.elim
  sound here := here.1
  mono here evolves := ⟨evolves.sound, here.2.trans evolves.settles.alike⟩
  circular _ _ _ _ := nofun
  circularArray _ _ _ _ _ := nofun
  component here _ _ := here
  inherited here _ _ _ _ :=
    ⟨here.1.starting _ _, here.2.trans (alike_starting _ _ _)⟩
  linking here opens allocated _ :=
    ⟨opens.sound_opening here.1 allocated, here.2.trans (alike_opening _ _ _ _)⟩
  tables here opens _ := by
    have found := opens.found
    rw [here.2.files] at found
    constructor
    · intro inherited interfaces key refused name key same
      cases same
      exact ⟨_, _, found, fun plain => ClassFile.repeats_of_build plain refused⟩
    · exact fun _ _ _ _ _ _ _ => nofun

/-- Members are said to be declared twice only if the file by which the loader gets the class
declares two of one name and one descriptor. -/
structure Convicts (world : World) (loader : LoaderId) (error : Error) : Prop where
  methods : ∀ name key, error = .linkage (.duplicateMethod name key) →
    ∃ definer file, world.Topmost loader name definer file ∧ ¬ file.Distinguishes file.methods
  fields : ∀ name key, error = .linkage (.duplicateField name key) →
    ∃ definer file, world.Topmost loader name definer file ∧ ¬ file.Distinguishes file.fields

/-- The world goes on from a model, in which the loader is asked. -/
structure Serves (model : World) (base loader : LoaderId) (world : World) : Prop
    extends model.Matching world where
  among : loader ∈ model.delegates base

namespace Serves

theorem root (serves : model.Serves base loader world) (present : model.HasLoader base) :
    model.Serves base .bootstrap world :=
  ⟨serves.toMatching, serves.sound.top base present⟩

theorem asked (serves : model.Serves base loader world)
    (among : definer ∈ world.delegates loader) : model.Serves base definer world := by
  rw [serves.alike.delegates] at among
  exact ⟨serves.toMatching, (serves.sound.suffix_delegates serves.among).subset among⟩

theorem onward (serves : model.Serves base loader world) (matching : model.Matching later) :
    model.Serves base loader later :=
  ⟨matching, serves.among⟩

theorem topmost (serves : model.Serves base loader world)
    (opens : world.Opens loader name definer file) : model.Topmost base name definer file := by
  have topmost := (opens.topmost serves.regularToo).of_alike serves.alike.symm
  exact ⟨(serves.asked opens.among).among, topmost.has, topmost.above⟩

end Serves

theorem convicts_justifies (plain : model.PlainFiles) (present : model.HasLoader base) :
    Justifies (model.Convicts base) fun loader _ world => model.Serves base loader world where
  ordinary error isOrdinary := by
    constructor <;>
    · intro name key same
      subst same
      exact isOrdinary.elim
  sound serves := serves.soundToo
  mono serves evolves := serves.onward (serves.toMatching.mono evolves)
  circular _ _ _ _ := ⟨nofun, nofun⟩
  circularArray _ _ _ _ _ := ⟨nofun, nofun⟩
  component serves _ _ := serves
  inherited serves _ _ _ _ :=
    (serves.root present).onward (serves.toMatching.starting _ _)
  linking serves opens allocated asks := by
    have matching := serves.toMatching.opening opens allocated
    cases asks with
    | superclass | interface => exact (serves.asked opens.among).onward matching
    | string => exact (serves.root present).onward matching
  tables serves opens allocated := by
    have plainToo := plain.of_alike serves.alike
    have topmost := serves.topmost opens
    constructor
    · intro inherited interfaces key refused
      refine ⟨fun name key same => ?_, nofun⟩
      cases same
      exact ⟨_, _, topmost, ClassFile.repeats_of_build (plain _ _ _ topmost.has).2 refused⟩
    · intro later superclass interfaces key evolves found refused
      refine ⟨nofun, fun name key same => ?_⟩
      cases same
      have regular := evolves.regular
        (regular_opening serves.soundToo allocated serves.regularToo)
      exact ⟨_, _, topmost, opens.repeats_of_addAll plainToo evolves regular found refused⟩

/-! ### Members told apart -/

/-- The class finds under names without blanks what it declares and nothing else. A key stands for
one name and one descriptor, and that of a field for one field of the class and of all above. -/
structure TellsApart (world : World) (id : ClassId) : Prop where
  methods : ∀ name descriptor method, ' ' ∉ name.toList →
    ((world.type id).declaredMethod? name descriptor = some method ↔
      world.MethodIn id name descriptor method)
  fields : ∀ name descriptor field, ' ' ∉ name.toList →
    (((world.type id).declaredField? name descriptor).map FieldSlot.field = some field ↔
      world.FieldIn id name descriptor field)
  methodKeys : ∀ method, world.Declares id method → ∀ type, world.Reaches id type →
    ∀ other, world.Declares type other → other.key = method.key →
      other.name = method.name ∧ other.descriptor = method.descriptor
  fieldKeys : ∀ field, world.DeclaresField id field → ∀ type, world.Reaches id type →
    ∀ other, world.DeclaresField type other → other.key = field.key → other = field

theorem Sound.tellsApart (sound : world.Sound)
    (linked : ∃ linkage, (world.type id).linkage? = some linkage)
    (plain : ∀ type, world.Reaches id type → world.Plain type)
    (unrivalled : world.Unrivalled id) : world.TellsApart id where
  methods name descriptor method unbroken :=
    sound.declaredMethod?_eq_some linked (plain id .refl) unbroken
  fields name descriptor field unbroken :=
    sound.declaredField?_eq_some linked plain unrivalled unbroken
  methodKeys method declares type reaches other declaresToo same :=
    MethodTables.methodKey_eq_of_names same ((plain type reaches).methods other declaresToo)
      ((plain id .refl).methods method declares)
  fieldKeys field declares type reaches other declaresToo same := by
    have keys := same
    rw [Field.key, Field.key, declares.owner.2, declaresToo.owner.2] at keys
    obtain ⟨owners, _⟩ := fieldKey_eq_of_names keys (plain type reaches).name
      (plain id .refl).name ((plain type reaches).fields other declaresToo)
      ((plain id .refl).fields field declares)
    cases unrivalled type reaches owners
    obtain ⟨linkage, linked⟩ := linked
    -- both are declared by the class itself, whose layout has one field under the key
    have found := sound.find?_of_declaresField linked declaresToo
    rw [same, sound.find?_of_declaresField linked declares] at found
    exact (Option.some_inj.1 found).symm

theorem Intact.tellsApart (intact : world.Intact) (plain : world.PlainFiles)
    (loaded : world.Loaded id) (linked : ∃ linkage, (world.type id).linkage? = some linkage) :
    world.TellsApart id := by
  refine intact.sound.tellsApart linked (fun type reaches => ?_)
    (intact.apart loaded linked id .refl)
  obtain ⟨_, linkedToo⟩ := intact.sound.reaches_linked linked reaches
  have sees := intact.regular.sees_of_reaches intact.sound (intact.registered loaded).sees reaches
  exact intact.regular.plain_of_registered plain sees.registered
    (Class.not_isArray_of_linkage? linkedToo)

end World

/-- Where names are without blanks, a linked class tells the members that it declares apart unless
a class of its name is above it, and loading fails as a method is declared twice only if a file
declares two of one name and one descriptor. As long as directories are spared, too, all classes
that have been loaded tell members apart, and loading fails as a method or a field is declared twice
only if the file from which the loader gets the class declares two such. -/
theorem Session.members_told_apart {session : Session} {world : World}
    (among : world ∈ session.worlds) :
    (∀ id, (∃ linkage, (world.type id).linkage? = some linkage) →
      (∀ type, world.Reaches id type → world.Plain type) → world.Unrivalled id →
        world.TellsApart id) ∧
    (∀ loader name error, (runFrom world (World.load loader name)).1 = .error error →
      world.Repeats error) ∧
    (session.Spares → world.PlainFiles →
      (∀ id, world.Loaded id → (∃ linkage, (world.type id).linkage? = some linkage) →
        world.TellsApart id) ∧
      ∀ loader, world.HasLoader loader → ∀ name error,
        (runFrom world (World.load loader name)).1 = .error error →
          world.Convicts loader error) := by
  have sound := (World.Met.clean ⟨session, among⟩).sound
  refine ⟨fun id linked plain unrivalled => sound.tellsApart linked plain unrivalled,
    fun loader name => ?_, fun spares plain => ?_⟩
  · exact (World.repeats_justifies world).accounts_load loader name world ⟨sound, .refl world⟩
  · have intact := (spares.faithful among).toIntact
    refine ⟨fun id loaded linked => intact.tellsApart plain loaded linked,
      fun loader present name => ?_⟩
    have serves : world.Serves loader loader world :=
      ⟨.refl intact.sound intact.regular, List.mem_cons_self⟩
    exact (World.convicts_justifies plain present).accounts_load loader name world serves

/-! ### Overloads -/

set_option maxRecDepth 20000

namespace Overloads

/-- A class declares methods of one name and fields of one name, and another class declares one
field twice. -/
def source : Source := .holding
  [("java/lang/Object", .withoutMembers 0x0021 "java/lang/Object" "" []),
    ("Pair", .withMembers 0x0021 "Pair" "java/lang/Object" []
      [("m", "()V", 0x0001), ("m", "(I)V", 0x0001)] [("x", "I", 0), ("x", "J", 0)]),
    ("Twice", .withMembers 0x0021 "Twice" "java/lang/Object" [] [] [("x", "I", 0), ("x", "I", 0)])]

def operations : List Operation := [.load .bootstrap "Pair"]

def session : Session := .inOrder [source] operations

/-- The world after that. -/
def world : World := (World.initial [source]).after operations

def pair : ClassId := ⟨0⟩

theorem runsNoMethods : ∀ operation ∈ operations, operation.runsMethods = false := by
  simp [operations, Operation.runsMethods]

theorem spares : session.Spares := by
  refine Session.abides_inOrder runsNoMethods fun operation among world => ?_
  rw [List.mem_singleton.1 among]
  exact not_false

theorem met : world ∈ session.worlds := Session.after_mem_worlds runsNoMethods

theorem plainFiles : world.PlainFiles := World.plainFiles_of_sources (by decide +kernel)

theorem linked : world.findLoaded .bootstrap "Pair" = some pair ∧
    (world.type pair).linkage?.isSome ∧
    ((world.type pair).declaredMethod? "m" "(I)V").isSome ∧
    ((world.type pair).declaredField? "x" "J").isSome := by
  decide +kernel

theorem fails : (runFrom world (World.load .bootstrap "Twice")).1 =
    .error (.linkage (.duplicateField "Twice" "Twice x I")) := by
  decide +kernel

end Overloads

/-- The class that overloads its members finds them, and the other one is at fault. -/
theorem Session.members_told_apart_overloads : Overloads.session.Spares ∧
    Overloads.world ∈ Overloads.session.worlds ∧ Overloads.world.PlainFiles ∧
    (∃ method, Overloads.world.MethodIn Overloads.pair "m" "(I)V" method) ∧
    (∃ field, Overloads.world.FieldIn Overloads.pair "x" "J" field) ∧
    ∃ definer file, Overloads.world.Topmost .bootstrap "Twice" definer file ∧
      ¬ file.Distinguishes file.fields := by
  obtain ⟨_, _, spared⟩ := members_told_apart Overloads.met
  obtain ⟨tells, convicts⟩ := spared Overloads.spares Overloads.plainFiles
  obtain ⟨entered, linked, hasMethod, hasField⟩ := Overloads.linked
  have apart := tells Overloads.pair ⟨_, _, entered⟩ (Option.isSome_iff_exists.1 linked)
  obtain ⟨method, known⟩ := Option.isSome_iff_exists.1 hasMethod
  obtain ⟨slot, standing⟩ := Option.isSome_iff_exists.1 hasField
  refine ⟨Overloads.spares, Overloads.met, Overloads.plainFiles,
    ⟨method, (apart.methods _ _ _ (by decide)).1 known⟩,
    ⟨slot.field, (apart.fields _ _ _ (by decide)).1 (by rw [standing]; rfl)⟩, ?_⟩
  exact (convicts _ (World.hasLoader_of_findLoaded entered) _ _ Overloads.fails).fields _ _ rfl

/-! ### Names with blanks -/

namespace Blanks

/-- The names and descriptors of the fields differ, but one after the other they read the same. -/
def fields : ClassFile := .withMembers 0x0021 "Fields" "java/lang/Object" [] []
  [("a", "Lx Ly;", 0), ("a Lx", "Ly;", 0)]

/-- So do those of the methods. -/
def methods : ClassFile := .withMembers 0x0021 "Methods" "java/lang/Object" []
  [("m", "(Lx (Ly;)V", 0x0001), ("m (Lx", "(Ly;)V", 0x0001)] []

def source : Source := .holding
  [("java/lang/Object", .withoutMembers 0x0021 "java/lang/Object" "" []), ("Fields", fields),
    ("Methods", methods)]

end Blanks

/-- Neither class declares two members of one name and one descriptor, yet linking them fails as if
they did. -/
theorem World.blanks_collide :
    ((initial [Blanks.source]).fileFor .bootstrap "Fields" = .ok (some Blanks.fields) ∧
      Blanks.fields.Distinguishes Blanks.fields.methods ∧
      Blanks.fields.Distinguishes Blanks.fields.fields ∧
      (runFrom (initial [Blanks.source]) (World.load .bootstrap "Fields")).1 =
        .error (.linkage (.duplicateField "Fields" "Fields a Lx Ly;"))) ∧
    (initial [Blanks.source]).fileFor .bootstrap "Methods" = .ok (some Blanks.methods) ∧
      Blanks.methods.Distinguishes Blanks.methods.methods ∧
      Blanks.methods.Distinguishes Blanks.methods.fields ∧
      (runFrom (initial [Blanks.source]) (World.load .bootstrap "Methods")).1 =
        .error (.linkage (.duplicateMethod "Methods" "m (Lx (Ly;)V")) := by
  decide +kernel

end JavaMachine
