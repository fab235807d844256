import JavaMachine.Proofs.History
import JavaMachine.Proofs.Sparing

/-!
# Array classes over loaded classes

Over each class there is one array class, however it is asked for: of the class itself, or of a
loader that has the class by a name. It is found again by way of the name of the class, which is
read as a descriptor and loaded once more.
-/

namespace JavaMachine

/-- The text names the arrays over the class with a name. -/
inductive FieldType.NamesArrays (name : String) : String → Prop where
  | objects (none : ';' ∉ name.toList) : NamesArrays name ("[L" ++ name ++ ";")
  | arrays (bracket : name.toList.head? = some '[') : NamesArrays name ("[" ++ name)

namespace World

variable {world later : World} {loader : LoaderId} {name text : String}
variable {id component array : ClassId}

/-! ### Names of array classes -/

/-- The text is read as an array type over the class with the name. -/
def WritesArrays (name text : String) : Prop :=
  ∃ type, FieldType.ofDescriptor? text = some (.array type) ∧ ¬ type.isPrimitive ∧
    type.loadName = name

theorem writesArrays_objects (none : ';' ∉ name.toList) :
    WritesArrays name ("[L" ++ name ++ ";") :=
  ⟨.object name, FieldType.ofDescriptor?_arrayOfObjects none, Bool.false_ne_true, rfl⟩

theorem writesArrays_arrays {below : FieldType}
    (written : FieldType.ofDescriptor? name = some (.array below)) :
    WritesArrays name ("[" ++ name) := by
  refine ⟨.array below, ?_, Bool.false_ne_true, FieldType.descriptor_of_ofDescriptor? written⟩
  rw [FieldType.ofDescriptor?_bracket, written]
  rfl

theorem Regular.writesArrays (regular : world.Regular) (leads : world.LeadsTo loader name id)
    (names : FieldType.NamesArrays name text) : WritesArrays name text := by
  cases names with
  | objects none => exact writesArrays_objects none
  | arrays bracket =>
      obtain ⟨below, written⟩ := regular.written_of_leadsTo bracket leads
      exact writesArrays_arrays written

/-- A loaded class that an array class can be named after. -/
structure HasArrays (world : World) (component : ClassId) : Prop where
  loaded : ∃ loader name, world.findLoaded loader name = some component
  named : ¬ (world.type component).isArray → ';' ∉ (world.type component).name.toList

namespace HasArrays

variable (has : world.HasArrays component) (regular : world.Regular)
include has regular

theorem registered : world.Registered component := by
  obtain ⟨loader, name, entry⟩ := has.loaded
  exact regular.registered_of_findLoaded entry

theorem writesArrays (sound : world.Sound) :
    WritesArrays (world.type component).name (world.type component).arrayName := by
  have titled := sound.titles component (sound.directories _ _ _ (has.registered regular))
  rw [Class.arrayName]
  split
  next isArray =>
    obtain ⟨below, written, _⟩ := titled.array isArray
    exact writesArrays_arrays written
  next declared => exact writesArrays_objects (has.named declared)

end HasArrays

/-! ### The array class over a class -/

/-- The class that is entered with the loader of a class as that of arrays over it. -/
def EnteredOver (world : World) (component array : ClassId) : Prop :=
  world.findLoaded (world.type component).loader (world.type component).arrayName = some array

/-- By a name of the arrays over a class a loader that leads to the class leads to what is entered
over it. -/
theorem Regular.enteredOver_of_leadsTo (regular : world.Regular) (sound : world.Sound)
    (writes : WritesArrays name text) (leads : world.LeadsTo loader name component)
    (leadsArray : world.LeadsTo loader text array) : world.EnteredOver component array := by
  obtain ⟨type, written, reference, rfl⟩ := writes
  rcases regular.leadsTo_array written leadsArray with
    ⟨element, rfl, _⟩ | ⟨_, other, leadsOther, entry⟩
  · exact absurd rfl reference
  · cases regular.leadsTo_unique sound leads leadsOther
    exact entry

/-- What is entered over a class is an array class with the class as its component. -/
theorem EnteredOver.kind (entered : world.EnteredOver component array) (regular : world.Regular)
    (registered : world.Registered component)
    (writes : WritesArrays (world.type component).name (world.type component).arrayName) :
    (∃ supertypes, (world.type array).kind =
      .referenceArray component ((world.type component).dimension + 1) supertypes) ∧
    (world.type array).loader = (world.type component).loader ∧
    (world.type array).name = (world.type component).arrayName := by
  obtain ⟨own, written, reference, named⟩ := writes
  have stands := regular.entries _ _ _ entered
  refine ⟨?_, stands.loader, stands.name⟩
  cases stands.placed with
  | declared declared =>
      exact absurd (regular.isArray_of_findLoaded entered (Class.head?_arrayName _)) declared
  | @primitiveArray element _ _ _ title =>
      have writtenToo := FieldType.ofDescriptor?_arrayOfPrimitives element
      rw [← title, stands.name, written] at writtenToo
      cases writtenToo
      exact absurd rfl reference
  | @referenceArray other _ _ _ kind registeredOther home _ dimension writtenToo _ namedToo =>
      rw [stands.name, written] at writtenToo
      cases writtenToo
      rw [stands.loader] at home
      rw [Registered, ← home, ← namedToo, named, registered] at registeredOther
      cases registeredOther
      exact ⟨_, dimension ▸ kind⟩

/-- A class that was there before has the names by which loaders lead to it already. -/
theorem Regular.leadsTo_of_evolves (regular : world.Regular) (sound : world.Sound)
    (evolves : world.Evolves later) (registered : world.Registered id)
    (leads : later.LeadsTo loader name id) : world.LeadsTo loader name id := by
  have retains := evolves.retains
  have regularLater := evolves.regular regular
  -- entries of classes that were there have been there
  have before {definer : LoaderId} {key : String} {id : ClassId}
      (registered : world.Registered id) (entry : later.findLoaded definer key = some id) :
      world.findLoaded definer key = some id := by
    have usable := sound.directories _ _ _ registered
    have stands := regularLater.entries _ _ _ entry
    rw [← stands.loader, ← stands.name, retains.loader_eq usable, retains.name_eq usable]
    exact registered
  induction leads with
  | entered bracket entry => exact .entered bracket (before registered entry)
  | named plain among entry =>
      rw [evolves.settles.delegates_eq] at among
      exact .named plain among (before registered entry)
  | primitiveArray written entry => exact .primitiveArray written (before registered entry)
  | @referenceArray name id component type written reference leads entry inductionHypothesis =>
      obtain ⟨⟨supertypes, kind⟩, _⟩ := EnteredOver.kind entry regularLater
        (regularLater.registered_of_leadsTo leads)
        (regularLater.written_arrayName written reference leads)
      have isArray : (world.type id).isArray := by
        rw [← retains.isArray_eq (sound.directories _ _ _ registered)]
        exact Class.isArray_of_reference kind
      rw [retains.kind_eq isArray] at kind
      cases (regular.entries _ _ _ registered).placed with
      | declared declared => exact absurd isArray declared
      | primitiveArray other =>
          rw [kind] at other
          cases other
      | referenceArray other below home title =>
          rw [kind] at other
          cases other
          refine .referenceArray written reference (inductionHypothesis below) ?_
          rw [← home, ← title]
          exact registered

/-! ### Requests -/

/-- The array class over a class is got: it is asked for as such, or a loader that has the class by
a name is asked for the arrays over it. -/
inductive GetsArrays (world : World) (component array : ClassId) (later : World) : Prop where
  | own (ends : runFrom world (arrayClassOf component) = (.ok array, later))
  | named (loader : LoaderId) (name text : String)
      (loads : (runFrom world (load loader name)).1 = .ok (some component))
      (names : FieldType.NamesArrays name text)
      (ends : runFrom world (load loader text) = (.ok (some array), later))

/-- A loader that gives a class that is there has led to it before. -/
theorem Intact.leadsTo_of_load (intact : world.Intact) (registered : world.Registered id)
    (outcome : (runFrom world (load loader name)).1 = .ok (some id)) :
    world.LeadsTo loader name id := by
  have ends := (load_finds loader name world intact.sound).ends
  exact intact.regular.leadsTo_of_evolves intact.sound ends.leads registered
    ((ends.gives _ outcome).leads id rfl)

theorem HasArrays.retained (has : world.HasArrays component) (sound : world.Sound)
    (retains : world.Retains later) : later.HasArrays component where
  loaded := by
    obtain ⟨loader, name, entry⟩ := has.loaded
    exact ⟨loader, name, retains.findLoaded entry⟩
  named declared := by
    obtain ⟨loader, name, entry⟩ := has.loaded
    have usable := sound.directories _ _ _ entry
    rw [retains.isArray_eq usable] at declared
    rw [retains.name_eq usable]
    exact has.named declared

/-- However the array class is got, it is the one that is entered over the class. -/
theorem GetsArrays.enteredOver (gets : world.GetsArrays component array later)
    (intact : world.Intact) (has : world.HasArrays component) :
    world.Evolves later ∧ later.EnteredOver component array := by
  have registered := has.registered intact.regular
  have usable := intact.sound.directories _ _ _ registered
  cases gets with
  | own ends =>
      rw [arrayClassOf, runFrom_bind_ok runFrom_get] at ends
      obtain ⟨evolves, leads⟩ := (Load.required_ends load_finds _ _ intact.sound).ok ends
      have regular := evolves.regular intact.regular
      have below := (leadsTo_of_findLoaded registered).mono intact.sound evolves.retains
      have writes := has.writesArrays intact.regular intact.sound
      exact ⟨evolves, regular.enteredOver_of_leadsTo evolves.sound writes below leads⟩
  | named loader name text loads names ends =>
      obtain ⟨evolves, found⟩ := (load_finds _ _ _ intact.sound).ends.ok ends
      have regular := evolves.regular intact.regular
      have below := intact.leadsTo_of_load registered loads
      have writes := intact.regular.writesArrays below names
      exact ⟨evolves, regular.enteredOver_of_leadsTo evolves.sound writes
        (below.mono intact.sound evolves.retains) (found.leads array rfl)⟩

/-- What array classes inherit can be loaded. -/
structure RootsLoad (world : World) : Prop where
  root : ∃ id, (runFrom world (load .bootstrap WellKnown.objectClass)).1 = .ok (some id)
  cloneable : ∃ found, (runFrom world (load .bootstrap WellKnown.cloneableClass)).1 = .ok found
  serializable : ∃ found,
    (runFrom world (load .bootstrap WellKnown.serializableClass)).1 = .ok found

theorem Intact.evolved (intact : world.Intact) (evolves : world.Evolves later) : later.Intact :=
  (Course.develop (fun _ _ => evolves.toWorks.toDevelops) : world.Sparing later) intact |>.1

/-- What a loader answers without failing it answers so in a later world, too. -/
theorem Intact.delivers_of_evolves (intact : world.Intact) (evolves : world.Evolves later)
    (outcome : ∃ found, (runFrom world (load loader name)).1 = .ok found) :
    later.Delivers (load loader name) := by
  obtain ⟨found, outcome⟩ := outcome
  have intactLater := intact.evolved evolves
  have alike := evolves.settles.alike
  cases found with
  | some id => exact (load_some_of_alike intact intactLater alike outcome).delivers
  | none => exact ⟨none, load_none_of_alike intact intactLater alike outcome⟩

theorem Intact.arraySupertypes_delivers (intact : world.Intact) (roots : world.RootsLoad) :
    world.Delivers (arraySupertypes load) := by
  have required : world.Delivers (load.required .bootstrap WellKnown.objectClass) :=
    Obtains.required roots.root
  refine required.bind (Load.required_ends load_finds _ _ intact.sound)
    fun superclass first evolves _ => ?_
  refine (intact.delivers_of_evolves evolves roots.cloneable).bind
    (load_finds _ _ _ evolves.sound).ends fun cloneable second evolvesOn _ => ?_
  refine (intact.delivers_of_evolves (evolves.trans evolvesOn) roots.serializable).bind
    (load_finds _ _ _ evolvesOn.sound).ends fun serializable third _ _ => ?_
  exact .pure _

/-- The arrays over a class to which a loader leads are found by every name for them. -/
theorem Intact.obtains_arrays (intact : world.Intact) (roots : world.RootsLoad)
    (writes : WritesArrays name text) (leads : world.LeadsTo loader name component) :
    world.Obtains (load loader text) := by
  obtain ⟨type, written, reference, rfl⟩ := writes
  obtain ⟨supertypes, outcome⟩ := intact.arraySupertypes_delivers roots
  have ends := arraySupertypes_ends load_finds.findsPlain intact.sound
  have evolves := ends.leads
  have intactLater := intact.evolved evolves
  -- what array classes inherit has come in where they are looked for
  have alike := evolves.settles.alike.symm
  have quiet : (runFrom world (arraySupertypes load)).2.Quiet world :=
    ⟨intactLater.comparable intact alike, intact.idle⟩
  exact quiet.load_over (alike.shares loader) (ends.gives _ outcome) written reference
    (leads.mono intact.sound evolves.retains)

/-- The class is the array class over the component: of one dimension more, of the same loader and
ready for use. -/
structure IsArrayOver (world : World) (component array : ClassId) : Prop where
  kind : ∃ supertypes, (world.type array).kind =
    .referenceArray component ((world.type component).dimension + 1) supertypes
  loader : (world.type array).loader = (world.type component).loader
  state : (world.type array).state = .fullyInitialized

theorem EnteredOver.isArrayOver (entered : world.EnteredOver component array)
    (regular : world.Regular) (sound : world.Sound) (vetted : world.Vetted)
    (has : world.HasArrays component) : world.IsArrayOver component array := by
  obtain ⟨⟨supertypes, kind⟩, loader, _⟩ := entered.kind regular (has.registered regular)
    (has.writesArrays regular sound)
  exact ⟨⟨supertypes, kind⟩, loader,
    (vetted.classes array).array (Class.isArray_of_reference kind)⟩

theorem EnteredOver.mono (entered : world.EnteredOver component array)
    (retains : world.Retains later) (usable : (world.type component).isUsable) :
    later.EnteredOver component array := by
  rw [EnteredOver, retains.loader_eq usable, retains.arrayName_eq usable]
  exact retains.findLoaded entered

theorem EnteredOver.component_unique {other : ClassId} (entered : world.EnteredOver component array)
    (enteredToo : world.EnteredOver other array) (regular : world.Regular) (sound : world.Sound)
    (has : world.HasArrays component) (hasToo : world.HasArrays other) : component = other := by
  obtain ⟨⟨_, kind⟩, _⟩ := entered.kind regular (has.registered regular)
    (has.writesArrays regular sound)
  obtain ⟨⟨_, kindToo⟩, _⟩ := enteredToo.kind regular (hasToo.registered regular)
    (hasToo.writesArrays regular sound)
  rw [kind] at kindToo
  cases kindToo
  rfl

end World

namespace Session

variable {session : Session} {world later : World} {component other array otherArray : ClassId}

/-- The array class over a class is got in whatever way it is asked for. -/
theorem exists_getsArrays (spares : session.Spares) (among : world ∈ session.worlds)
    (has : world.HasArrays component) (roots : world.RootsLoad) :
    (∃ array later, runFrom world (World.arrayClassOf component) = (.ok array, later)) ∧
    ∀ loader name text, (runFrom world (World.load loader name)).1 = .ok (some component) →
      FieldType.NamesArrays name text →
        ∃ array later, runFrom world (World.load loader text) = (.ok (some array), later) := by
  have intact := (spares.faithful among).toIntact
  have registered := has.registered intact.regular
  constructor
  · obtain ⟨array, outcome⟩ := intact.obtains_arrays roots
      (has.writesArrays intact.regular intact.sound) (World.leadsTo_of_findLoaded registered)
    refine ⟨array, _, runFrom_eq_of_outcome ?_⟩
    rw [World.arrayClassOf, runFrom_bind_ok runFrom_get, World.require, Load.required,
      runFrom_bind_of_outcome outcome]
    rfl
  · intro loader name text loads names
    have leads := intact.leadsTo_of_load registered loads
    obtain ⟨array, outcome⟩ :=
      intact.obtains_arrays roots (intact.regular.writesArrays leads names) leads
    exact ⟨array, _, runFrom_eq_of_outcome outcome⟩

theorem isArrayOver_of_gets (spares : session.Spares) (among : world ∈ session.worlds)
    (has : world.HasArrays component) (gets : world.GetsArrays component array later) :
    later.IsArrayOver component array := by
  have versed := spares.versed among
  obtain ⟨evolves, entered⟩ := gets.enteredOver (spares.faithful among).toIntact has
  exact entered.isArrayOver (evolves.regular versed.regular) evolves.sound
    (evolves.vets versed.vetted) (has.retained versed.sound evolves.retains)

/-- What is got later over the same class is the same, and over another class it is not. -/
theorem array_eq_iff (spares : session.Spares) {step : Step} (taken : step ∈ session.steps)
    (since : session.Since step world) (has : step.world.HasArrays component)
    (hasToo : world.HasArrays other) (gets : step.world.GetsArrays component array step.left)
    (getsToo : world.GetsArrays other otherArray later) :
    array = otherArray ↔ component = other := by
  have first := (spares.faithful (Session.world_mem_worlds taken)).toIntact
  have second := (spares.faithful (Session.mem_worlds_of_since since)).toIntact
  obtain ⟨evolves, entered⟩ := gets.enteredOver first has
  obtain ⟨evolvesToo, enteredToo⟩ := getsToo.enteredOver second hasToo
  have retains : step.left.Retains later :=
    (spares.upholds since).retains.trans evolvesToo.retains
  have has := has.retained first.sound evolves.retains
  have usable := evolves.sound.directories _ _ _
    (has.registered (evolves.regular first.regular))
  have entered := entered.mono retains usable
  constructor
  · rintro rfl
    exact entered.component_unique enteredToo (evolvesToo.regular second.regular) evolvesToo.sound
      (has.retained evolves.sound retains) (hasToo.retained second.sound evolvesToo.retains)
  · rintro rfl
    exact Option.some_inj.1 (entered.symm.trans enteredToo)

/-- Over each class of a session with a name that may stand in the name of an array class there is
one array class, with that class as its component. It is got, in whatever way it is asked for, as
soon as what array classes inherit can be loaded, and ever after; over another class another one is
got. -/
theorem arrays_canonical (spares : session.Spares) :
    (∀ world ∈ session.worlds, ∀ component, world.HasArrays component →
      (world.RootsLoad →
        (∃ array later, runFrom world (World.arrayClassOf component) = (.ok array, later)) ∧
        ∀ loader name text, (runFrom world (World.load loader name)).1 = .ok (some component) →
          FieldType.NamesArrays name text →
            ∃ array later, runFrom world (World.load loader text) = (.ok (some array), later)) ∧
      ∀ array later, world.GetsArrays component array later →
        later.IsArrayOver component array) ∧
    ∀ step ∈ session.steps, ∀ world, session.Since step world →
      ∀ component other array otherArray later,
        step.world.HasArrays component → world.HasArrays other →
          step.world.GetsArrays component array step.left →
            world.GetsArrays other otherArray later →
              (array = otherArray ↔ component = other) :=
  ⟨fun _ among _ has => ⟨exists_getsArrays spares among has,
      fun _ _ gets => isArrayOver_of_gets spares among has gets⟩,
    fun _ taken _ since _ _ _ _ _ has hasToo gets getsToo =>
      array_eq_iff spares taken since has hasToo gets getsToo⟩

end Session

/-! ### Arrays of squares -/

theorem Step.left_arrayClassOf (world : World) (component : ClassId) :
    Step.left ⟨world, .arrayClassOf component⟩ =
      (runFrom world (World.arrayClassOf component)).2 := rfl

namespace Squares

set_option maxRecDepth 20000

def sources : List Source :=
  [.holding [("java/lang/Object", .withoutMembers 0x0021 "java/lang/Object" "" [])]]

def upper : Source :=
  .holding [("Square", .withoutMembers 0x0021 "Square" "java/lang/Object" [])]

def loader : LoaderId := ⟨1⟩

/-- A loader that asks the bootstrap loader loads a class of its own. -/
def before : List Operation :=
  [.addLoader "upper" .bootstrap [upper], .load loader "Square"]

def square : ClassId := ⟨0⟩

/-- Then the class is asked for its array class. -/
def operations : List Operation := before ++ [.arrayClassOf square]

def session : Session := .inOrder sources operations

def early : World := (World.initial sources).after before

/-- The last step. -/
def step : Step := ⟨early, .arrayClassOf square⟩

/-- The world after that. -/
def world : World := (World.initial sources).after operations

def squares : ClassId := ⟨2⟩

theorem plain : ∀ operation ∈ operations, operation.runsMethods = false := by
  simp [operations, before, Operation.runsMethods]

theorem spares : session.Spares := by
  refine Session.abides_inOrder plain fun operation among world => ?_
  simp only [operations, before, List.cons_append, List.nil_append, List.mem_cons,
    List.not_mem_nil, or_false] at among
  rcases among with rfl | rfl | rfl <;> exact not_false

theorem taken : step ∈ session.steps :=
  Session.mem_steps_inOrder sources before [] (.arrayClassOf square) plain

theorem since : session.Since step world :=
  Session.since_inOrder sources before [] (.arrayClassOf square) plain

theorem finds : step.world.findLoaded loader "Square" = some square ∧
    (step.world.type square).name = "Square" ∧
    (runFrom step.world (World.load .bootstrap WellKnown.objectClass)).1 = .ok (some ⟨1⟩) ∧
    (runFrom step.world (World.load .bootstrap WellKnown.cloneableClass)).1 = .ok none ∧
    (runFrom step.world (World.load .bootstrap WellKnown.serializableClass)).1 = .ok none ∧
    (runFrom step.world (World.arrayClassOf square)).1 = .ok squares := by
  decide +kernel

theorem findsLater : world.findLoaded loader "Square" = some square ∧
    (world.type square).name = "Square" ∧
    (runFrom world (World.load loader "Square")).1 = .ok (some square) ∧
    (runFrom world (World.load loader "[LSquare;")).1 = .ok (some squares) := by
  decide +kernel

theorem hasArrays {world : World} (entry : world.findLoaded loader "Square" = some square)
    (named : (world.type square).name = "Square") : world.HasArrays square := by
  refine ⟨⟨loader, "Square", entry⟩, fun _ => ?_⟩
  rw [named]
  decide

theorem roots : step.world.RootsLoad := by
  obtain ⟨_, _, root, cloneable, serializable, _⟩ := finds
  exact ⟨⟨_, root⟩, ⟨_, cloneable⟩, ⟨_, serializable⟩⟩

theorem gets : step.world.GetsArrays square squares step.left := by
  obtain ⟨_, _, _, _, _, outcome⟩ := finds
  have left : step.left = (runFrom step.world (World.arrayClassOf square)).2 := by
    rw [step, Step.left_arrayClassOf]
  rw [left]
  exact .own (runFrom_eq_of_outcome outcome)

theorem getsLater : world.GetsArrays square squares
    (runFrom world (World.load loader "[LSquare;")).2 := by
  obtain ⟨_, _, loads, outcome⟩ := findsLater
  have names : FieldType.NamesArrays "Square" "[LSquare;" := .objects (by decide)
  have ends := runFrom_eq_of_outcome outcome
  exact .named loader "Square" "[LSquare;" loads names ends

end Squares

/-- The class is given one array class, which its loader gives later by its name. -/
theorem Session.arrays_canonical_squares :
    (∃ array later, runFrom Squares.step.world (World.arrayClassOf Squares.square) =
      (.ok array, later)) ∧
    Squares.step.left.IsArrayOver Squares.square Squares.squares ∧
    (∃ later, Squares.world.GetsArrays Squares.square Squares.squares later) ∧
    ∀ array later, Squares.world.GetsArrays Squares.square array later →
      Squares.squares = array := by
  obtain ⟨canonical, once⟩ := Session.arrays_canonical Squares.spares
  obtain ⟨entry, named, _⟩ := Squares.finds
  obtain ⟨entryLater, namedLater, _⟩ := Squares.findsLater
  have has := Squares.hasArrays entry named
  have hasLater := Squares.hasArrays entryLater namedLater
  obtain ⟨exist, tells⟩ :=
    canonical _ (Session.world_mem_worlds Squares.taken) Squares.square has
  refine ⟨(exist Squares.roots).1, tells _ _ Squares.gets, ⟨_, Squares.getsLater⟩,
    fun array later gets => ?_⟩
  exact (once _ Squares.taken _ Squares.since _ _ _ _ _ has hasLater Squares.gets gets).2 rfl

end JavaMachine
