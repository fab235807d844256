import JavaMachine.Proofs.Linking

/-!
# Linking lets worlds evolve

Linking is the one step that attaches a linkage to a class. A class that is added and linked at once
lets the world evolve: either it comes in with what fits it or it is left behind as failed.
-/

namespace JavaMachine.World

variable {world later : World} {load : Load} {name : String} {file : ClassFile}

/-! ### States -/

/-- The world with a class in another state. -/
def withState (world : World) (id : ClassId) (state : Class → ClassState) : World :=
  world.modifyType id fun type => { type with state := state type }

theorem runFrom_advance {id : ClassId} {next : ClassState}
    (may : (world.type id).state.canAdvanceTo next) :
    runFrom world (advance id next) =
      (.ok (), world.withState id fun _ => next) := by
  change runFrom world (if (world.type id).state.canAdvanceTo next then _ else _) = _
  rw [if_pos may]
  rfl

/-- A class whose state is not that of an absent class is there. -/
theorem present_of_state {id : ClassId} (state : (world.type id).state ≠ .initializationError) :
    id.index < world.classes.size := by
  apply Nat.lt_of_not_ge
  intro absent
  rw [type_eq_default absent] at state
  exact state rfl

theorem type_withState_other (state : Class → ClassState) {id other : ClassId}
    (distinct : other ≠ id) : (world.withState id state).type other = world.type other :=
  type_modifyType_other _ _ distinct.symm

theorem type_withState (state : Class → ClassState) {id : ClassId}
    (present : id.index < world.classes.size) :
    (world.withState id state).type id =
      { world.type id with state := state (world.type id) } :=
  type_modifyType_same _ present

@[simp] theorem size_withState (world : World) (id : ClassId) (state : Class → ClassState) :
    (world.withState id state).classes.size = world.classes.size :=
  size_modifyType _ _ _

theorem lasting_withState (world : World) (id other : ClassId) (state : Class → ClassState) :
    ((world.withState id state).type other).lasting = (world.type other).lasting := by
  rw [withState, type_modifyType]
  split <;> rfl

/-- A change of a state alone keeps a world sound. -/
theorem Sound.withState (sound : world.Sound) (id : ClassId) (state : Class → ClassState) :
    (world.withState id state).Sound := by
  have lasting (other : ClassId) := lasting_withState world id other state
  have keeps : world.KeepsUsable (world.withState id state) := fun other _ => lasting other
  exact sound.of_lasting (size_withState world id state) lasting (.of_eq rfl) (fun _ _ _ => .inl)
    fun shaped => keeps.shaped shaped rfl

theorem Settles.withState (world : World) (id : ClassId) (state : Class → ClassState) :
    world.Settles (world.withState id state) :=
  .of_loaders (fun other _ => lasting_withState world id other state) rfl rfl fun _ _ found => found

theorem Regular.withState (regular : world.Regular) (sound : world.Sound) (id : ClassId)
    (state : Class → ClassState) : (world.withState id state).Regular :=
  regular.of_lasting sound (fun other => lasting_withState world id other state) (.of_eq rfl) rfl
    rfl rfl

theorem LeavesContents.withState (world : World) (id : ClassId) (state : Class → ClassState) :
    world.LeavesContents (world.withState id state) := by
  refine .of_lasting rfl (fun other => lasting_withState world id other state) fun other => ?_
  rw [World.withState, type_modifyType]
  split <;> rfl

theorem sameMirrors_withState (world : World) (id : ClassId) (state : Class → ClassState) :
    world.SameMirrors (world.withState id state) := by
  intro other
  rw [World.withState, type_modifyType]
  split <;> rfl

theorem MirroredBut.withState {pending : ClassId → Prop} (mirrored : world.MirroredBut pending)
    (id : ClassId) (state : Class → ClassState) :
    (world.withState id state).MirroredBut pending :=
  mirrored.of_lasting (fun other => lasting_withState world id other state)
    (sameMirrors_withState world id state) (.of_eq rfl) rfl

@[simp] theorem resolved?_withState (world : World) (id other : ClassId)
    (state : Class → ClassState) (kind : ConstantKind) (index : UInt16) :
    (world.withState id state).resolved? other kind index = world.resolved? other kind index := by
  apply resolved?_eq_of_pool
  rw [World.withState, type_modifyType]
  split <;> rfl

/-- A change of a state alone keeps a world vetted, if the class may be in that state. -/
theorem Vetted.withState (vetted : world.Vetted) {id : ClassId} {state : Class → ClassState}
    (array : (world.type id).isArray → state (world.type id) = .fullyInitialized)
    (unusable : ¬ (world.type id).isUsable →
      state (world.type id) = .allocated ∨ state (world.type id) = .initializationError) :
    (world.withState id state).Vetted := by
  have keeps : world.KeepsUsable (world.withState id state) :=
    fun other _ => lasting_withState world id other state
  refine vetted.of_changes keeps (.of_eq rfl) (fun other => ?_) rfl
  rw [World.withState, type_modifyType]
  split
  next same =>
    rw [← same.1]
    exact .inr (((vetted.classes id).withState array unusable).mono keeps (.of_eq rfl))
  next => exact .inl rfl

theorem markFailed_eq (world : World) (id : ClassId) :
    world.markFailed id = world.withState id fun type =>
      if type.state.isTerminal then type.state else .initializationError := by
  rw [markFailed, withState]
  congr 1
  funext type
  split <;> rfl

/-- Failure is a state in which any class may be that is no array class. -/
theorem Vetted.markFailed (vetted : world.Vetted) (id : ClassId) :
    (world.markFailed id).Vetted := by
  rw [markFailed_eq]
  refine vetted.withState (fun isArray => ?_) fun unusable => ?_
  · rw [(vetted.classes id).array isArray]
    rfl
  · rcases (vetted.classes id).unusable unusable with state | state <;>
      simp [state, ClassState.isTerminal]

/-! ### Attaching what was linked -/

variable {id : ClassId} {body : DeclaredClass}

/-- What is made of what linking computes, once the class has been looked at. -/
theorem runFrom_linkWith (declared : (world.type id).declared? = some body)
    (state : (world.type id).state = .allocated) :
    runFrom world (linkWith load id) = runFrom world (tryCatch
      (linkDeclared load id (world.type id).loader (world.type id).name body.file >>=
        fun computed => do
          modify fun world => world.attachLinkage id computed.1 computed.2
          advance id .linked)
      fun error => do
        modify fun world => world.markFailed id
        throw error) := by
  rw [linkWith, runFrom_bind_ok runFrom_get]
  dsimp only
  rw [declared]
  dsimp only
  rw [if_neg (by simp [state])]

/-- A class for which linking computes nothing has failed. -/
theorem runFrom_linkWith_error {error : Error}
    (declared : (world.type id).declared? = some body) (state : (world.type id).state = .allocated)
    (fails : runFrom world
      (linkDeclared load id (world.type id).loader (world.type id).name body.file) =
        (.error error, later)) :
    runFrom world (linkWith load id) = (.error error, later.markFailed id) := by
  rw [runFrom_linkWith declared state, runFrom_tryCatch_error (runFrom_bind_error fails)]
  rfl

/-- Linking an allocated class either marks it as failed or attaches what fits it; before that
nothing happens but what other loads do. -/
theorem linkWith_cases (finds : load.Finds) (sound : world.Sound)
    (declared : (world.type id).declared? = some body)
    (state : (world.type id).state = .allocated) :
    (∃ error later, world.Evolves later ∧
      runFrom world (linkDeclared load id (world.type id).loader (world.type id).name body.file) =
        (.error error, later) ∧
      runFrom world (linkWith load id) = (.error error, later.markFailed id)) ∨
    ∃ linkage static later, world.Evolves later ∧
      Linked world id (world.type id).loader (world.type id).name body.file linkage static later ∧
      runFrom world (linkWith load id) = (.ok (),
        (later.attachLinkage id linkage static).withState id fun _ => .linked) := by
  have linking := linkDeclared_ends finds id (world.type id).loader (world.type id).name body.file
    sound
  rcases ends : runFrom world
      (linkDeclared load id (world.type id).loader (world.type id).name body.file) with
    ⟨error | ⟨linkage, static⟩, later⟩
  · refine .inl ⟨error, later, ?_, rfl, runFrom_linkWith_error declared state ends⟩
    have evolves := linking.leads
    rw [ends] at evolves
    exact evolves
  · have evolves := linking.leads
    have linked := linking.gives
    rw [ends] at evolves linked
    refine .inr ⟨linkage, static, later, evolves, linked _ rfl, ?_⟩
    have stateStill : (later.type id).state = .allocated := by
      rw [evolves.grows.state id (present_of_state (by simp [state])), state]
    have attached : ((later.attachLinkage id linkage static).type id).state = .allocated := by
      rw [attachLinkage, modifyDeclared, type_modifyType]
      split
      · split <;> exact stateStill
      · exact stateStill
    have may : ((later.attachLinkage id linkage static).type id).state.canAdvanceTo .linked := by
      simp [attached, ClassState.canAdvanceTo]
    rw [runFrom_linkWith declared state, runFrom_tryCatch_ok]
    rw [runFrom_bind_ok ends]
    exact runFrom_advance may

/-- A class whose linking fails has failed, and nothing else of it that lasts is another. -/
theorem linkWith_failed (finds : load.Finds) (sound : world.Sound)
    (declared : (world.type id).declared? = some body)
    (state : (world.type id).state = .allocated) {error : Error}
    (fails : runFrom world (linkWith load id) = (.error error, later)) :
    later.Sound ∧ (world.Vetted → later.Vetted) ∧
      (later.type id).state = .initializationError ∧
        (later.type id).lasting = (world.type id).lasting := by
  rcases linkWith_cases finds sound declared state with
    ⟨_, middle, evolves, _, ends⟩ | ⟨_, _, _, _, _, ends⟩
  · obtain ⟨_, rfl⟩ := Prod.mk.inj (fails.symm.trans ends)
    have present : id.index < world.classes.size := present_of_state (by simp [state])
    have vets (vetted : world.Vetted) := (evolves.vets vetted).markFailed id
    rw [markFailed_eq] at vets ⊢
    refine ⟨evolves.sound.withState _ _, vets, ?_, ?_⟩
    · rw [type_withState _ (Nat.lt_of_lt_of_le present evolves.grows.size)]
      simp [evolves.grows.state id present, state, ClassState.isTerminal]
    · rw [lasting_withState, evolves.grows.lasting id present]
  · obtain ⟨impossible, _⟩ := Prod.mk.inj (fails.symm.trans ends)
    cases impossible

/-! ### Changes of one class -/

/-- At most one class is another one later. What the world has been relied on for stays as it is. -/
structure Alters (id : ClassId) (world later : World) : Prop where
  others : ∀ other, other ≠ id → later.type other = world.type other
  size : later.classes.size = world.classes.size
  journal : later.journal = world.journal
  objects : world.KeepsObjects later
  strings : later.strings = world.strings
  vets : world.Vetted → later.Vetted
  settles : world.Settles later
  leaves : world.LeavesContents later
  pools : ∀ id kind index, later.resolved? id kind index = world.resolved? id kind index
  mirrors : world.SameMirrors later

theorem alters_markFailed (world : World) (id : ClassId) :
    world.Alters id (world.markFailed id) := by
  have vets (vetted : world.Vetted) := vetted.markFailed id
  rw [markFailed_eq] at vets ⊢
  exact {
    others := fun other distinct => type_withState_other _ distinct
    size := size_withState world id _
    journal := rfl
    objects := .of_eq rfl
    strings := rfl
    vets
    settles := .withState world id _
    leaves := .withState world id _
    pools := fun other kind index => resolved?_withState world id other _ kind index
    mirrors := sameMirrors_withState world id _ }

/-- What is there goes on to grow while a class is added that is changed once more later. -/
theorem Grows.of_added {type : Class} {final : World} (grows : (world.addType type).2.Grows later)
    (alters : later.Alters world.nextId final) (fresh : (final.type world.nextId).IsFresh) :
    world.Grows final := by
  have sizes := grows.size
  rw [size_addType] at sizes
  have old {other : ClassId} (present : other.index < world.classes.size) :
      final.type other = later.type other ∧
        (world.addType type).2.type other = world.type other := by
    constructor
    · apply alters.others
      intro same
      rw [same] at present
      exact Nat.lt_irrefl _ present
    · rw [type_addType, if_neg (Nat.ne_of_lt present)]
  constructor
  · rw [alters.size]
    omega
  · intro other present
    rw [(old present).1, grows.lasting other (by simp; omega), (old present).2]
  · intro other present
    rw [(old present).1, grows.state other (by simp; omega), (old present).2]
  · intro other absent
    by_cases same : other = world.nextId
    · rw [same]
      exact fresh
    · rw [alters.others other same]
      apply grows.fresh
      have distinct : other.index ≠ world.classes.size := by
        intro equal
        exact same (by rw [nextId, ← equal])
      simp
      omega
  · rw [alters.journal, grows.journal]
    rfl
  · have same : world.KeepsObjects (world.addType type).2 := .of_eq rfl
    exact (same.trans grows.objects).trans alters.objects

/-- A class that was added has been linked or has failed since, while the world evolved. -/
theorem Unfolds.of_added {type : Class} {final : World} (added : (world.addType type).2.Sound)
    (kind : type.kind = .declared { file }) (unmirrored : type.mirror = none)
    (vetsAdded : world.Vetted → (world.addType type).2.Vetted)
    (evolves : (world.addType type).2.Evolves later) (alters : later.Alters world.nextId final)
    (sound : final.Sound) (fresh : (final.type world.nextId).IsFresh)
    (regular : world.Regular → final.Regular) : world.Unfolds final where
  sound := sound
  grows := evolves.grows.of_added alters fresh
  vets vetted := alters.vets (evolves.vets (vetsAdded vetted))
  settles := ((Settles.addType world type).trans evolves.settles).trans alters.settles
  regular := regular
  strings known := by
    have retains := (Settles.addType world type).toRetains
    exact (evolves.strings (known.of_same retains (.of_eq rfl) rfl)).of_same
      alters.settles.toRetains alters.objects alters.strings
  leaves := by
    have keepsAdded := keepsUsable_addType world type
    have addedObjects : world.KeepsObjects (world.addType type).2 := .of_eq rfl
    have leavesAdded : world.LeavesContents (world.addType type).2 :=
      .of_objects (.addType (Class.linkage?_of_declared kind)) keepsAdded rfl
    have before := leavesAdded.trans evolves.leaves added vetsAdded evolves.retains keepsAdded
      addedObjects evolves.grows.objects
    exact before.trans alters.leaves evolves.sound
      (fun vetted => evolves.vets (vetsAdded vetted)) alters.settles.toRetains
      (keepsAdded.trans evolves.keepsUsable) (addedObjects.trans evolves.grows.objects)
      alters.objects
  pools id constant index := by
    rw [alters.pools, evolves.pools, resolved?_addType (Class.pool?_of_declared kind)]
  keepsMirrors := ((sameMirrors_addType unmirrored).keepsMirrors.trans evolves.keepsMirrors).trans
    alters.mirrors.keepsMirrors

/-! ### Classes that are added -/

/-- A class that has been defined under a name by a file. -/
structure Defined (start : World) (loader : LoaderId) (name : String) (file : ClassFile)
    (id : ClassId) (later : World) : Prop where
  usable : (later.type id).isUsable
  loader : (later.type id).loader = loader
  name : (later.type id).name = name
  declared : ¬ (later.type id).isArray
  isFile : (later.type id).file? = some file
  founded : start.Regular → later.Founded id

section Added

variable {type : Class}

theorem isFresh_failed (state : type.state = .allocated) (present : id.index < world.classes.size)
    (same : (world.type id).state = type.state) : ((world.markFailed id).type id).IsFresh := by
  refine .failed ?_
  rw [markFailed_eq, type_withState _ present]
  simp [same, state, ClassState.isTerminal]

/-- A class that comes in without a linkage is not one of which mirrors are instances yet. -/
theorem Mirrored.addDeclared (mirrored : world.Mirrored) (kind : type.kind = .declared { file })
    (unmirrored : type.mirror = none) : (world.addType type).2.Mirrored :=
  mirrored.addType unmirrored fun usable => by
    have unusable : ¬ type.isUsable := by
      simp [Class.isUsable, Class.isArray, Class.linkage?, Class.declared?, kind]
    exact absurd usable unusable

/-- The linking of an added class has failed. -/
theorem evolves_of_failed (sound : world.Sound) (added : (world.addType type).2.Sound)
    (kind : type.kind = .declared { file })
    (state : type.state = .allocated) (mirror : type.mirror = none)
    (evolves : (world.addType type).2.Evolves later) :
    world.Evolves (later.markFailed world.nextId) := by
  have present : world.nextId.index < (world.addType type).2.classes.size := by
    simp [nextId]
  have stateStill := evolves.grows.state world.nextId present
  rw [type_nextId_addType] at stateStill
  have fresh := isFresh_failed state (Nat.lt_of_lt_of_le present evolves.grows.size) stateStill
  have vetsAdded (vetted : world.Vetted) := vetted.addType (vets_allocated kind state mirror)
  constructor
  · refine .of_added added kind mirror vetsAdded evolves (alters_markFailed _ _) ?_ fresh
      fun regular => ?_
    · rw [markFailed_eq]
      exact evolves.sound.withState _ _
    · rw [markFailed_eq]
      exact (evolves.regular (regular.addType sound (Class.linkage?_of_declared kind))).withState
        evolves.sound _ _
  · intro before
    rw [markFailed_eq]
    exact (evolves.mirrored (before.addDeclared kind mirror)).withState _ _

theorem Settles.attachLinkage {linkage : Linkage} {static : Array Value}
    (kind : (world.type id).kind = .declared body) (unlinked : body.linkage = none) :
    world.Settles (world.attachLinkage id linkage static) :=
  .of_loaders (keepsUsable_attachLinkage kind unlinked) rfl rfl fun _ _ found => found

/-- A linkage whose supertypes are seen by the loader keeps a world regular. -/
theorem Regular.attachLinkage {linkage : Linkage} {static : Array Value} (regular : world.Regular)
    (sound : world.Sound) (present : id.index < world.classes.size)
    (kind : (world.type id).kind = .declared body) (unlinked : body.linkage = none)
    (names : world.Names (world.type id).loader body.file linkage) :
    (world.attachLinkage id linkage static).Regular := by
  have retains : world.Retains (world.attachLinkage id linkage static) :=
    (Settles.attachLinkage kind unlinked).toRetains
  refine regular.of_loaders sound retains rfl rfl ?_
    (regular.strings.of_same retains (.of_eq rfl) rfl)
  intro other file attached declared linked
  by_cases same : other = id
  · subst same
    rw [type_attachLinkage _ _ present kind] at declared linked ⊢
    cases declared
    cases linked
    exact .inr (names.mono sound retains)
  · rw [type_attachLinkage_other same] at declared linked
    exact .inl ⟨declared, linked⟩

section Attached

variable {linkage : Linkage} {static : Array Value} (present : id.index < world.classes.size)
  (kind : (world.type id).kind = .declared body)
include present kind

/-- A class when its linking comes to an end. -/
theorem type_attached : ((world.attachLinkage id linkage static).withState id
    fun _ => .linked).type id = { world.type id with
      state := .linked
      kind := .declared { body with linkage := some linkage, pool := some {}, static } } := by
  rw [type_withState, type_attachLinkage linkage static present kind]
  rwa [size_attachLinkage]

theorem linkage?_attached : (((world.attachLinkage id linkage static).withState id
    fun _ => .linked).type id).linkage? = some linkage := by
  rw [type_attached present kind]
  rfl

theorem file?_attached : (((world.attachLinkage id linkage static).withState id
    fun _ => .linked).type id).file? = some body.file := by
  rw [type_attached present kind]
  rfl

theorem Vetted.attached (vetted : world.Vetted) (unlinked : body.linkage = none) :
    ((world.attachLinkage id linkage static).withState id fun _ => .linked).Vetted := by
  have keeps : world.KeepsUsable
      ((world.attachLinkage id linkage static).withState id fun _ => .linked) :=
    (keepsUsable_attachLinkage kind unlinked).trans fun other _ => lasting_withState _ id other _
  refine vetted.of_changes keeps (.of_eq rfl) (fun other => ?_) rfl
  by_cases same : other = id
  · rw [same, type_attached present kind]
    exact .inr (((vetted.classes id).attached linkage static).mono keeps (.of_eq rfl))
  · rw [type_withState_other _ same, type_attachLinkage_other same]
    exact .inl rfl

/-- The pool that is attached is empty. -/
theorem resolved?_attached (detached : ∀ kind index, world.resolved? id kind index = none)
    (other : ClassId) (constant : ConstantKind) (index : UInt16) :
    ((world.attachLinkage id linkage static).withState id fun _ => .linked).resolved? other
      constant index = world.resolved? other constant index := by
  by_cases same : other = id
  · subst same
    rw [detached, resolved?, type_attached present kind]
    cases constant <;> rfl
  · rw [resolved?, type_withState_other _ same, type_attachLinkage_other same, ← resolved?]

theorem LeavesFields.attached (unlinked : body.linkage = none)
    (starts : world.Starts body.file linkage.fields static) :
    world.LeavesFields ((world.attachLinkage id linkage static).withState id fun _ => .linked) where
  toLeavesObjects := .of_eq rfl
  static other linked := by
    have distinct : other ≠ id := by
      rintro rfl
      rw [Class.linkage?, Class.declared?_eq_some.2 kind, Option.bind_some, unlinked] at linked
      cases linked
    rw [type_withState_other _ distinct, type_attachLinkage_other distinct]
  starts other file own before declared linked := by
    by_cases same : other = id
    · subst same
      rw [file?_attached present kind] at declared
      rw [linkage?_attached present kind] at linked
      cases declared
      cases linked
      rw [type_attached present kind]
      exact ⟨starts.size, starts.values⟩
    · rw [type_withState_other _ same, type_attachLinkage_other same, before] at linked
      cases linked

theorem alters_attached (unlinked : body.linkage = none)
    (starts : world.Starts body.file linkage.fields static)
    (detached : ∀ kind index, world.resolved? id kind index = none) :
    world.Alters id ((world.attachLinkage id linkage static).withState id fun _ => .linked) := by
  have others (other : ClassId) (distinct : other ≠ id) :
      ((world.attachLinkage id linkage static).withState id fun _ => .linked).type other =
        world.type other := by
    rw [type_withState_other _ distinct, type_attachLinkage_other distinct]
  have settles : world.Settles
      ((world.attachLinkage id linkage static).withState id fun _ => .linked) :=
    (Settles.attachLinkage kind unlinked).trans (.withState _ _ _)
  exact {
    others
    size := by rw [size_withState, size_attachLinkage]
    journal := rfl
    objects := .of_eq rfl
    strings := rfl
    vets := fun vetted => vetted.attached present kind unlinked
    settles
    leaves := .of_objects (.attached present kind unlinked starts) settles.usable rfl
    pools := resolved?_attached present kind detached
    mirrors := fun other => by
      by_cases same : other = id
      · rw [same, type_attached present kind]
      · rw [others other same] }

end Attached

/-- The supertypes that a loader sees are founded, and so is the class of strings once there are
canonical strings. -/
theorem founded_of_names {linkage : Linkage} {static : Array Value} (regular : world.Regular)
    (names : world.Names (world.type id).loader file linkage)
    (starts : world.Starts file linkage.fields static)
    (linked : ∀ supertype ∈ linkage.supertypes, (world.type supertype).linkage?.isSome)
    (retains : world.Retains later) (declared : (later.type id).file? = some file)
    (linkedLater : (later.type id).linkage? = some linkage) : later.Founded id := by
  have entered {loader : LoaderId} {name : String} {other : ClassId}
      (entry : world.findLoaded loader name = some other)
      (isDeclared : ¬ (world.type other).isArray) : world.Founded other := by
    cases (regular.entries loader name other entry).placed with
    | declared _ _ _ _ _ founded => exact founded
    | primitiveArray kind => exact absurd (Class.isArray_of_primitive kind) isDeclared
    | referenceArray kind => exact absurd (Class.isArray_of_reference kind) isDeclared
  have strings (needs : NeedsString file linkage) : ∃ type,
      world.findLoaded .bootstrap WellKnown.stringClass = some type ∧ world.Founded type := by
    obtain ⟨key, slot, text, found, first⟩ := needs
    obtain ⟨value, own, _, known, depicts⟩ := starts.values key slot found
    rw [first] at known
    cases known
    obtain ⟨object, _, known⟩ := depicts
    obtain ⟨type, entry, _⟩ := regular.strings text object known
    have stands := regular.entries _ _ _ entry
    exact ⟨type, entry, entered entry (stands.not_isArray (by decide))⟩
  refine .intro declared linkedLater (fun supertype membership => ?_) (fun needs => ?_)
    fun needs type found => ?_
  · obtain ⟨own, linked⟩ := Option.isSome_iff_exists.1 (linked supertype membership)
    exact (entered (names.supertypes supertype membership).registered
      (Class.not_isArray_of_linkage? linked)).mono retains
  · obtain ⟨type, entry, _⟩ := strings needs
    rw [retains.findLoaded entry]
    rfl
  · obtain ⟨other, entry, founded⟩ := strings needs
    rw [retains.findLoaded entry] at found
    cases found
    exact founded.mono retains

/-- The linking of an added class has succeeded. -/
theorem unfolds_of_linked {linkage : Linkage} {static : Array Value} (sound : world.Sound)
    (added : (world.addType type).2.Sound) (kind : type.kind = .declared { file })
    (state : type.state = .allocated) (mirror : type.mirror = none)
    (plain : type.name.toList.head? ≠ some '[')
    (evolves : (world.addType type).2.Evolves later)
    (linked : Linked (world.addType type).2 world.nextId type.loader type.name file linkage static
      later) :
    let final := (later.attachLinkage world.nextId linkage static).withState world.nextId
      fun _ => .linked
    world.Unfolds final ∧ (world.Mirrored → final.MirroredBut (· = world.nextId)) ∧
      Defined world type.loader type.name file world.nextId final := by
  intro final
  have present : world.nextId.index < (world.addType type).2.classes.size := by
    simp [nextId]
  have presentStill := Nat.lt_of_lt_of_le present evolves.grows.size
  have lasting := evolves.grows.lasting world.nextId present
  rw [type_nextId_addType] at lasting
  obtain ⟨own, ownKind, rfl, unlinked⟩ := Class.declared_of_lasting lasting kind
  have name : (later.type world.nextId).name = type.name := by
    simpa using congrArg Class.name lasting
  have loader : (later.type world.nextId).loader = type.loader := by
    simpa using congrArg Class.loader lasting
  have fits := linked.fits
  rw [← name] at fits
  have attachedSound : (later.attachLinkage world.nextId linkage static).Sound :=
    evolves.sound.attachLinkage presentStill ownKind unlinked fits (name ▸ plain)
  have detached (constant : ConstantKind) (index : UInt16) :
      later.resolved? world.nextId constant index = none := by
    rw [evolves.pools, resolved?, type_nextId_addType, Class.pool?_of_declared kind]
    rfl
  have alters : later.Alters world.nextId final :=
    alters_attached presentStill ownKind unlinked linked.starts detached
  have regularStill (regular : world.Regular) : later.Regular :=
    evolves.regular (regular.addType sound (Class.linkage?_of_declared kind))
  have names (regular : world.Regular) :
      later.Names (later.type world.nextId).loader own.file linkage := by
    rw [loader]
    exact linked.names (regular.addType sound (Class.linkage?_of_declared kind))
  have fileFinal : (final.type world.nextId).file? = some own.file :=
    file?_attached presentStill ownKind
  have linkageFinal : (final.type world.nextId).linkage? = some linkage :=
    linkage?_attached presentStill ownKind
  refine ⟨?_, fun before => ?_, ?_⟩
  · refine .of_added added kind mirror
      (fun vetted => vetted.addType (vets_allocated kind state mirror)) evolves alters
      (attachedSound.withState _ _) ?_ fun regular => ?_
    · exact .linked (congrArg Class.state (type_attached presentStill ownKind))
        (Option.isSome_of_eq_some linkageFinal)
    · exact ((regularStill regular).attachLinkage evolves.sound presentStill ownKind unlinked
        (names regular)).withState attachedSound _ _
  · refine (evolves.mirrored (before.addDeclared kind mirror)).of_same alters.mirrors (.of_eq rfl)
      (fun _ => rfl) fun id free usable isClass => ⟨not_false, ?_⟩
    rw [alters.others id free] at usable isClass
    exact ⟨usable, isClass⟩
  · refine ⟨Class.isUsable_of_linkage? (Option.isSome_of_eq_some linkageFinal), ?_, ?_,
      Class.not_isArray_of_linkage? linkageFinal, fileFinal, fun regular => ?_⟩
    · rw [← loader, type_attached presentStill ownKind]
    · rw [← name, type_attached presentStill ownKind]
    · exact founded_of_names (regularStill regular) (names regular) linked.starts
        linked.fits.linked alters.settles.toRetains fileFinal linkageFinal

/-- An added class is linked: the world evolves if that fails. If it succeeds mirrors are in order
but for the class. -/
theorem linkWith_added (finds : load.Finds) (sound : world.Sound)
    (home : world.HasLoader type.loader) (heads : type.Heads)
    (kind : type.kind = .declared { file }) (state : type.state = .allocated)
    (mirror : type.mirror = none) (plain : type.name.toList.head? ≠ some '[') :
    (∃ error later, world.Evolves later ∧
      runFrom (world.addType type).2 (linkWith load world.nextId) = (.error error, later)) ∨
    ∃ later, world.Unfolds later ∧ (world.Mirrored → later.MirroredBut (· = world.nextId)) ∧
      Defined world type.loader type.name file world.nextId later ∧
      runFrom (world.addType type).2 (linkWith load world.nextId) = (.ok (), later) := by
  let added := (world.addType type).2
  have addedType : added.type world.nextId = type := type_nextId_addType world type
  have declared : (added.type world.nextId).declared? = some { file } := by
    rw [addedType, Class.declared?, kind]
  have addedSound : added.Sound := sound.addDeclared kind home heads
  rcases linkWith_cases finds addedSound declared (by rw [addedType, state]) with
    ⟨error, later, evolves, _, ends⟩ | ⟨linkage, static, later, evolves, linked, ends⟩
  · exact .inl ⟨error, _, evolves_of_failed sound addedSound kind state mirror evolves, ends⟩
  · rw [addedType] at linked
    obtain ⟨unfolds, mirrored, defined⟩ :=
      unfolds_of_linked sound addedSound kind state mirror plain evolves linked
    exact .inr ⟨_, unfolds, mirrored, defined, ends⟩

end Added

end JavaMachine.World
