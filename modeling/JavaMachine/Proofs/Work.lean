import JavaMachine.Proofs.Evolution

/-!
# Work under which worlds evolve

Computations let every sound world evolve when their parts do so. Such are the allocation of objects
and mirrors, and whatever is loaded by a way of loading that finds classes to which loaders lead.
-/

namespace JavaMachine

open World

variable {α β : Type} {world later : World} {id : ClassId}

/-- The computation lets every sound world evolve. -/
def Evolving (action : WorldM α) : Prop :=
  ∀ world : World, world.Sound → Ends Evolves world action fun _ _ => True

namespace Evolving

theorem pure (result : α) : Evolving (Pure.pure result) :=
  fun _ sound => .pure (.refl sound) trivial

theorem throw (error : Error) : Evolving (MonadExcept.throw error : WorldM α) :=
  fun _ sound => .throw (.refl sound)

theorem ofLinking (outcome : Except LinkageError α) : Evolving (WorldM.ofLinking outcome) := by
  cases outcome with
  | ok result => exact pure result
  | error cause => exact throw (.linkage cause)

theorem bind {action : WorldM α} {next : α → WorldM β} (first : Evolving action)
    (rest : ∀ result, Evolving (next result)) : Evolving (action >>= next) :=
  fun _ sound => (first _ sound).bind fun result later evolves _ => rest result later evolves.sound

theorem bindGet {next : World → WorldM β} (rest : ∀ world, Evolving (next world)) :
    Evolving (get >>= next) :=
  fun _ sound => .bindGet (rest _ _ sound)

theorem of_ends {action : WorldM α} {post : World → α → World → Prop}
    (ends : ∀ world : World, world.Sound → Ends Evolves world action (post world)) :
    Evolving action :=
  fun _ sound => (ends _ sound).mono fun _ _ _ => trivial

end Evolving

namespace World

/-! ### Computations that give results -/

/-- The computation gives a result. -/
def Delivers (world : World) (action : WorldM α) : Prop :=
  ∃ result, (runFrom world action).1 = .ok result

namespace Delivers

variable {action : WorldM α} {next : α → WorldM β} {post : α → World → Prop}
variable {relation : World → World → Prop}

theorem pure (result : α) : world.Delivers (pure result : WorldM α) := ⟨result, rfl⟩

theorem bindGet {next : World → WorldM β} (rest : world.Delivers (next world)) :
    world.Delivers (get >>= next) := rest

theorem bind (first : world.Delivers action) (ends : Ends relation world action post)
    (rest : ∀ result later, relation world later → post result later →
      later.Delivers (next result)) :
    world.Delivers (action >>= next) := by
  obtain ⟨result, outcome⟩ := first
  rw [Delivers, runFrom_bind_of_outcome outcome]
  exact rest result _ ends.leads (ends.gives result outcome)

/-- A result of linking is given before anything else is done. -/
theorem bindLinking {outcome : Except LinkageError α} {result : α} (known : outcome = .ok result)
    (rest : world.Delivers (next result)) : world.Delivers (WorldM.ofLinking outcome >>= next) := by
  subst known
  exact rest

end Delivers

/-! ### Objects -/

/-- Objects come in. Classes and loaders are the same. -/
structure Adds (world later : World) : Prop extends world.Evolves later where
  classes : later.classes = world.classes
  loaders : later.loaders = world.loaders

theorem Adds.refl (sound : world.Sound) : world.Adds world := ⟨.refl sound, rfl, rfl⟩

/-- An object comes in, with the defaults in its fields if it has any. -/
theorem allocate_adds {type : ClassId} {body : ObjectBody} (sound : world.Sound)
    (fresh : world.Fresh { type, body }) (guards : world.Guards { type, body }) :
    Ends Adds world (allocate type body) fun object later =>
      object.index < later.objects.size ∧ later.object object = { type, body } := by
  have evolves := Evolves.of_objects sound (.addObject fresh.shaped) (.addObject fresh) rfl
    fun sound vetted guarded => guarded.addObject sound vetted guards
  refine (Ends.modifyGet ⟨evolves, rfl, rfl⟩).mono ?_
  rintro _ _ ⟨rfl, rfl⟩
  exact ⟨by simp [addObject], object_added world _⟩

theorem allocate_ends {type : ClassId} {body : ObjectBody} (sound : world.Sound)
    (fresh : world.Fresh { type, body }) (guards : world.Guards { type, body }) :
    Ends Evolves world (allocate type body) fun object later =>
      object.index < later.objects.size ∧ later.object object = { type, body } :=
  (allocate_adds sound fresh guards).relax fun _ => Adds.toEvolves

theorem allocateInstance_adds (id : ClassId) (attachment : Attachment) (sound : world.Sound) :
    Ends Adds world (allocateInstance id attachment) fun object later =>
      (later.object object).lasting = (id, some attachment) := by
  apply Ends.bindGet
  dsimp only
  split
  · exact .throw (.refl sound)
  next body declared =>
    split
    · exact .throw (.refl sound)
    next linkage linked =>
      have isLinked : (world.type id).linkage? = some linkage := by
        rw [Class.linkage?, declared, Option.bind_some, linked]
      refine (allocate_adds sound ?_ ?_).mono fun object later made => ?_
      · intro fields same
        cases same
        exact ⟨linkage, isLinked, rfl⟩
      · exact guards_of_body (Class.isUsable_of_linkage? (Option.isSome_of_eq_some isLinked))
          fun _ same => by cases same
      · rw [made.2]
        rfl

theorem allocateInstance_ends (id : ClassId) (attachment : Attachment) (sound : world.Sound) :
    Ends Evolves world (allocateInstance id attachment) fun object later =>
      (later.object object).lasting = (id, some attachment) :=
  (allocateInstance_adds id attachment sound).relax fun _ => Adds.toEvolves

theorem allocateInstance_evolving (id : ClassId) (attachment : Attachment) :
    Evolving (allocateInstance id attachment) :=
  Evolving.of_ends fun _ => allocateInstance_ends id attachment

/-- Linked classes have instances. -/
theorem allocateInstance_delivers (attachment : Attachment) {linkage : Linkage}
    (linked : (world.type id).linkage? = some linkage) :
    world.Delivers (allocateInstance id attachment) := by
  obtain ⟨body, declared, attached⟩ := Option.bind_eq_some_iff.1 linked
  apply Delivers.bindGet
  dsimp only
  rw [declared]
  dsimp only
  rw [attached]
  exact ⟨_, rfl⟩

/-- Only linked classes have instances. -/
theorem runFrom_allocateInstance_unlinked (attachment : Attachment)
    (unlinked : (world.type id).linkage? = none) :
    ∃ error, runFrom world (allocateInstance id attachment) = (.error error, world) := by
  rw [allocateInstance, runFrom_bind_ok runFrom_get]
  dsimp only
  cases declared : (world.type id).declared? with
  | none => exact ⟨_, rfl⟩
  | some body =>
      rw [Class.linkage?, declared, Option.bind_some] at unlinked
      dsimp only
      rw [unlinked]
      exact ⟨_, rfl⟩

theorem allocatePrimitives_ends (id : ClassId) (length : Nat) (sound : world.Sound) :
    Ends Evolves world (allocatePrimitives id length) fun array later =>
      array.index < later.objects.size ∧ (later.object array).type = id := by
  apply Ends.bindGet
  dsimp only
  split
  next element supertypes kind =>
    split
    · have usable := Class.isUsable_of_isArray (Class.isArray_of_primitive kind)
      refine (allocate_ends sound (fresh_of_array rfl) ?_).mono fun array later made => ?_
      · exact guards_of_body usable nofun
      · exact ⟨made.1, by rw [made.2]⟩
    · exact .throw (.refl sound)
  · exact .throw (.refl sound)

theorem allocatePrimitives_evolving (id : ClassId) (length : Nat) :
    Evolving (allocatePrimitives id length) :=
  Evolving.of_ends fun _ => allocatePrimitives_ends id length

theorem allocateReferences_ends (id : ClassId) (length : Nat) (sound : world.Sound) :
    Ends Evolves world (allocateReferences id length) fun array later =>
      array.index < later.objects.size ∧ (later.object array).lasting = (id, none) := by
  apply Ends.bindGet
  dsimp only
  split
  next component dimension supertypes kind =>
    split
    · have known : (world.type id).component? = some component := by rw [Class.component?, kind]
      have guards : world.Guards ⟨id, .references (Array.replicate length none)⟩ :=
        guards_of_component? known fun element among => by simp at among
      refine (allocate_ends sound (fresh_of_array rfl) guards).mono fun array later made => ?_
      exact ⟨made.1, by rw [made.2]; rfl⟩
    · exact .throw (.refl sound)
  · exact .throw (.refl sound)

theorem allocateReferences_evolving (id : ClassId) (length : Nat) :
    Evolving (allocateReferences id length) :=
  Evolving.of_ends fun _ => allocateReferences_ends id length

/-! ### Mirrors -/

/-- Classes that have none are given mirrors of a type. -/
structure Reflects (type : ClassId) (world later : World) : Prop extends world.Unfolds later where
  loaders : later.loaders = world.loaders
  lasting : ∀ id, (later.type id).lasting = (world.type id).lasting
  shows : ∀ id mirror, (later.type id).mirror = some mirror →
    (world.type id).mirror = some mirror ∨
      (later.object mirror).lasting = (type, some (.mirror id))

namespace Reflects

variable {type : ClassId} {middle : World}

theorem of_adds (adds : world.Adds later) : Reflects type world later where
  toUnfolds := adds.toUnfolds
  loaders := adds.loaders
  lasting id := by rw [World.type, adds.classes, World.type]
  shows id mirror has := .inl (by rwa [World.type, ← adds.classes])

theorem refl (sound : world.Sound) : Reflects type world world := of_adds (.refl sound)

theorem trans (first : Reflects type world middle) (second : Reflects type middle later) :
    Reflects type world later where
  toUnfolds := first.toUnfolds.trans second.toUnfolds
  loaders := second.loaders.trans first.loaders
  lasting id := (second.lasting id).trans (first.lasting id)
  shows id mirror has := by
    rcases second.shows id mirror has with before | new
    · refine (first.shows id mirror before).imp_right fun made => ?_
      have present := present_of_lasting (congrArg Prod.snd made) nofun
      exact (second.grows.objects.lasting mirror present).trans made
    · exact .inr new

instance : IsTrans World (Reflects type) := ⟨fun _ _ _ => trans⟩

theorem mirrorClass?_eq (reflects : Reflects type world later) :
    later.mirrorClass? = world.mirrorClass? :=
  findLoaded_eq_of_loaders reflects.loaders .bootstrap _

/-- Mirrors of the class that has been entered are in order. -/
theorem mirrored (reflects : Reflects type world later) (entry : world.mirrorClass? = some type)
    {pending : ClassId → Prop} (mirrored : world.MirroredBut pending) :
    later.MirroredBut pending where
  shows id mirror has := by
    rw [reflects.mirrorClass?_eq]
    rcases reflects.shows id mirror has with before | new
    · obtain ⟨own, entered, lasting⟩ := mirrored.shows id mirror before
      have present := present_of_lasting (congrArg Prod.snd lasting) nofun
      exact ⟨own, entered, (reflects.grows.objects.lasting mirror present).trans lasting⟩
    · exact ⟨type, entry, new⟩
  complete has name id found := by
    rw [findLoaded_eq_of_loaders reflects.loaders] at found
    exact reflects.keepsMirrors.isSome
      (mirrored.complete (Option.isSome_of_eq_some entry) name id found)
  entered id free usable isClass := by
    rw [reflects.mirrorClass?_eq]
    refine mirrored.entered id free ?_ ⟨?_, ?_⟩
    · rw [← Class.lasting_isUsable, ← reflects.lasting, Class.lasting_isUsable, usable]
    · rw [← Class.lasting_name, ← reflects.lasting, Class.lasting_name, isClass.name]
    · rw [← Class.lasting_loader, ← reflects.lasting, Class.lasting_loader, isClass.loader]

theorem evolves (reflects : Reflects type world later)
    (entry : world.mirrorClass? = some type) : world.Evolves later :=
  ⟨reflects.toUnfolds, reflects.mirrored entry⟩

end Reflects

/-- A class is given an object that stands for it. -/
theorem reflects_withMirror {type target : ClassId} {mirror : ObjectId} (sound : world.Sound)
    (mirrors : (world.object mirror).lasting = (type, some (.mirror target))) :
    Reflects type world (world.modifyType target fun type =>
      { type with mirror := type.mirror.or (some mirror) }) := by
  have keeps : world.Keeps (world.modifyType target fun type =>
      { type with mirror := type.mirror.or (some mirror) }) :=
    .modifyType world target (fun _ => rfl) fun _ => rfl
  refine ⟨.of_keeps sound keeps (fun vetted => ?_) (.of_lasting rfl keeps.lasting fun id => ?_)
    (fun id => resolved?_eq_of_pool ?_) fun id known has => ?_, rfl, keeps.lasting,
    fun id known has => ?_⟩
  · refine vetted.of_changes (fun id _ => keeps.lasting id) keeps.objects (fun id => ?_) rfl
    rw [type_modifyType]
    split
    next same =>
      rw [← same.1]
      exact .inr (((vetted.classes target).withMirror (congrArg Prod.snd mirrors)).mono
        (fun id _ => keeps.lasting id) keeps.objects)
    next => exact .inl rfl
  · rw [type_modifyType]
    split <;> rfl
  · rw [type_modifyType]
    split <;> rfl
  · rw [type_modifyType]
    split
    · exact Option.or_eq_some_iff.2 (.inl has)
    · exact has
  · rw [type_modifyType] at has
    split at has
    next same =>
      obtain ⟨rfl, _⟩ := same
      refine (Option.or_eq_some_iff.1 has).imp_right ?_
      rintro ⟨_, new⟩
      cases new
      exact mirrors
    next => exact .inl has

theorem installMirror_ends (mirrorClass target : ClassId) (sound : world.Sound) :
    Ends (Reflects mirrorClass) world (installMirror mirrorClass target) fun _ later =>
      target.index < world.classes.size → (later.type target).mirror.isSome := by
  refine ((allocateInstance_adds mirrorClass (.mirror target) sound).relax
    fun _ => Reflects.of_adds).bind fun mirror middle reflects made => ?_
  refine (Ends.modify (reflects_withMirror reflects.sound made)).mono ?_
  rintro _ _ rfl present
  rw [type_modifyType_same _ (Nat.lt_of_lt_of_le present reflects.grows.size)]
  simp

theorem installMissingMirrors_ends (mirrorClass : ClassId) (targets : List ClassId)
    (sound : world.Sound) :
    Ends (Reflects mirrorClass) world (installMissingMirrors mirrorClass targets) fun _ later =>
      ∀ target ∈ targets, target.index < world.classes.size →
        (later.type target).mirror.isSome := by
  induction targets generalizing world with
  | nil => exact .pure (.refl sound) (List.forall_mem_nil _)
  | cons target rest inductionHypothesis =>
      apply Ends.bindGet
      split
      · refine (installMirror_ends mirrorClass target sound).bind fun _ middle first given => ?_
        refine (inductionHypothesis first.sound).withLeads.mono fun _ later ends => ?_
        refine List.forall_mem_cons.2 ⟨fun present => ?_, fun other among present => ?_⟩
        · exact ends.1.keepsMirrors.isSome (given present)
        · exact ends.2 other among (Nat.lt_of_lt_of_le present first.grows.size)
      next has =>
        refine (inductionHypothesis sound).withLeads.mono fun _ later ends => ?_
        refine List.forall_mem_cons.2 ⟨fun _ => ends.1.keepsMirrors.isSome ?_, ends.2⟩
        exact Option.isSome_iff_ne_none.2 (mt Option.isNone_iff_eq_none.2 has)

/-- All classes in a directory are among its classes. -/
theorem mem_classes_of_findLoaded {loader : LoaderId} {name : String}
    (entry : world.findLoaded loader name = some id) :
    id ∈ (world.loader loader).directory.classes :=
  List.mem_filterMap.2 ⟨some id, Table.mem_values_of_find? (findLoaded_eq_some.1 entry), rfl⟩

/-- The class of which mirrors are instances and those entered before it get mirrors. -/
theorem ensureMirror_reflects (isClass : (world.type id).IsMirrorClass)
    (unmirrored : (world.type id).mirror = none) (sound : world.Sound) :
    Ends (Reflects id) world (ensureMirror id) fun _ later =>
      (id.index < world.classes.size → (later.type id).mirror.isSome) ∧
        ∀ name other, world.findLoaded .bootstrap name = some other →
          (later.type other).mirror.isSome := by
  apply Ends.bindGet
  dsimp only
  rw [unmirrored, if_pos Option.isNone_none, if_pos ⟨isClass.name, isClass.loader⟩]
  refine (installMirror_ends id id sound).bind fun _ middle first given => ?_
  apply Ends.bindGet
  refine (installMissingMirrors_ends id _ first.sound).withLeads.mono fun _ later ends => ?_
  refine ⟨fun present => ends.1.keepsMirrors.isSome (given present), fun name other entry => ?_⟩
  rw [← findLoaded_eq_of_loaders first.loaders] at entry
  exact ends.2 other (mem_classes_of_findLoaded entry)
    (present_of_isUsable (first.sound.directories _ _ _ entry))

/-- When mirrors are in order a class gets one, unless there are none yet. -/
theorem ensureMirror_ends (id : ClassId) (sound : world.Sound) :
    Ends Evolves world (ensureMirror id) fun _ later =>
      world.Mirrored → later.mirrorClass?.isSome → id.index < world.classes.size →
        (later.type id).mirror.isSome := by
  by_cases unmirrored : (world.type id).mirror = none
  · by_cases isClass : (world.type id).IsMirrorClass
    · cases linked : (world.type id).linkage? with
      | none =>
          obtain ⟨error, fails⟩ := runFrom_allocateInstance_unlinked (.mirror id) linked
          apply Ends.bindGet
          dsimp only
          rw [unmirrored, if_pos Option.isNone_none, if_pos ⟨isClass.name, isClass.loader⟩]
          exact .of_error (runFrom_bind_error (runFrom_bind_error fails)) (.refl sound)
      | some linkage =>
          -- once it can be used it has been entered, with a mirror
          have absurdly (mirrored : world.Mirrored) : False := by
            have usable := Class.isUsable_of_linkage? (Option.isSome_of_eq_some linked)
            have entry := mirrored.entered id not_false usable isClass
            have has := mirrored.complete (Option.isSome_of_eq_some entry) _ id entry
            rw [unmirrored] at has
            cases has
          refine ((ensureMirror_reflects isClass unmirrored sound).relax
            fun later reflects => ⟨reflects.toUnfolds, ?_⟩).mono
              fun _ _ _ mirrored => (absurdly mirrored).elim
          exact fun mirrored => (absurdly mirrored).elim
    · apply Ends.bindGet
      dsimp only
      rw [unmirrored, if_pos Option.isNone_none, if_neg fun both => isClass ⟨both.1, both.2⟩]
      split
      next mirrorClass entry =>
        refine ((installMirror_ends mirrorClass id sound).relax fun _ reflects =>
          reflects.evolves entry).mono fun _ _ given _ _ => given
      next none =>
        refine .pure (.refl sound) fun _ has => ?_
        rw [mirrorClass?, none] at has
        cases has
  · apply Ends.bindGet
    dsimp only
    rw [if_neg (mt Option.isNone_iff_eq_none.1 unmirrored)]
    exact .pure (.refl sound) fun _ _ _ => Option.isSome_iff_ne_none.2 unmirrored

theorem ensureMirror_evolving (id : ClassId) : Evolving (ensureMirror id) :=
  Evolving.of_ends fun _ => ensureMirror_ends id

theorem installMirror_delivers {mirrorClass : ClassId} {linkage : Linkage} (target : ClassId)
    (sound : world.Sound) (linked : (world.type mirrorClass).linkage? = some linkage) :
    world.Delivers (installMirror mirrorClass target) :=
  (allocateInstance_delivers _ linked).bind (allocateInstance_ends mirrorClass _ sound)
    fun _ _ _ _ => ⟨_, rfl⟩

theorem installMissingMirrors_delivers {mirrorClass : ClassId} {linkage : Linkage}
    (targets : List ClassId) (sound : world.Sound)
    (linked : (world.type mirrorClass).linkage? = some linkage) :
    world.Delivers (installMissingMirrors mirrorClass targets) := by
  induction targets generalizing world with
  | nil => exact .pure ()
  | cons target rest inductionHypothesis =>
      apply Delivers.bindGet
      split
      · refine (installMirror_delivers target sound linked).bind
          (installMirror_ends mirrorClass target sound) fun _ later reflects _ => ?_
        exact inductionHypothesis reflects.sound (reflects.keepsUsable.linkage? linked)
      · exact inductionHypothesis sound linked

/-- A class can be given a mirror once it is linked, and array classes always can. -/
theorem ensureMirror_delivers (sound : world.Sound)
    (linked : (world.type id).name.toList.head? ≠ some '[' → (world.type id).linkage?.isSome) :
    world.Delivers (ensureMirror id) := by
  apply Delivers.bindGet
  dsimp only
  split
  · split
    next isClass =>
      have plain : (world.type id).name.toList.head? ≠ some '[' := by
        rw [isClass.1]
        decide
      obtain ⟨linkage, linked⟩ := Option.isSome_iff_exists.1 (linked plain)
      refine (installMirror_delivers id sound linked).bind
        (installMirror_ends id id sound) fun _ later reflects _ => ?_
      exact .bindGet (installMissingMirrors_delivers _ reflects.sound
        (reflects.keepsUsable.linkage? linked))
    next =>
      split
      next mirrorClass entry =>
        obtain ⟨_, linked⟩ :=
          Option.isSome_iff_exists.1 (sound.linked_of_findLoaded (by decide) entry)
        exact installMirror_delivers id sound linked
      next => exact .pure ()
  · exact .pure ()

end World

/-! ### Loading on the way -/

/-- What a loader has found for a name: a class to which it leads, unless the name has been looked
for in vain. -/
structure Found (loader : LoaderId) (name : String) (found : Option ClassId) (later : World) :
    Prop where
  leads : ∀ id, found = some id → later.LeadsTo loader name id
  absent : found = none → later.Lacks loader name

/-- A request to a loader lets the world evolve and gives a class to which the loader leads, the one
to which it has led before if there is one. -/
structure Finding (world : World) (loader : LoaderId) (name : String)
    (request : WorldM (Option ClassId)) : Prop where
  ends : Ends Evolves world request (Found loader name)
  again : world.Regular → ∀ id, world.LeadsTo loader name id →
    (runFrom world request).1 = .ok (some id)

/-- Loading any name through any loader finds classes to which loaders lead. -/
def Load.Finds (load : Load) : Prop :=
  ∀ loader name (world : World), world.Sound → Finding world loader name (load loader name)

namespace Load

variable {load : Load}

theorem Finds.evolving (finds : load.Finds) (loader : LoaderId) (name : String) :
    Evolving (load loader name) :=
  Evolving.of_ends fun world sound => (finds loader name world sound).ends

theorem required_ends (finds : load.Finds) (loader : LoaderId) (name : String)
    (sound : world.Sound) :
    Ends Evolves world (load.required loader name) fun id later =>
      later.LeadsTo loader name id := by
  refine (finds loader name _ sound).ends.bind fun found later evolves holds => ?_
  cases found with
  | some id => exact .pure (.refl evolves.sound) (holds.leads id rfl)
  | none => exact .throw (.refl evolves.sound)

/-- The canonical string with a text is found, or comes in. -/
theorem intern_ends (finds : load.Finds) (text : String) (sound : world.Sound) :
    Ends Evolves world (load.intern text) fun object later =>
      later.strings.find? text = some object := by
  apply Ends.bindGet
  split
  next known found => exact .pure (.refl sound) found
  next =>
    refine (required_ends finds .bootstrap WellKnown.stringClass sound).bind
      fun stringClass middle evolves leads => ?_
    have entry := leads.entry_of_bootstrap evolves.sound (by decide)
    refine (allocateInstance_ends stringClass (.text text) evolves.sound).bind
      fun fresh later evolvesOn made => ?_
    -- loading the class of strings may have brought the text in
    refine (Ends.modifyGet ?_).mono ?_
    · split
      · exact .refl evolvesOn.sound
      next new =>
        exact .addString evolvesOn.sound (evolvesOn.retains.findLoaded entry) made new
    · rintro _ _ ⟨rfl, rfl⟩
      split
      next known found => exact found
      next => simp

theorem intern_evolving (finds : load.Finds) (text : String) : Evolving (load.intern text) :=
  Evolving.of_ends fun _ => intern_ends finds text

end Load

namespace World

theorem linkage?_of_isUsable {type : Class} (usable : type.isUsable) (declared : ¬ type.isArray) :
    type.linkage?.isSome := by
  simpa [Class.isUsable, declared] using usable

/-- A result of linking is known beforehand. -/
theorem ofLinking_ends {outcome : Except LinkageError α} (sound : world.Sound) :
    Ends Evolves world (WorldM.ofLinking outcome) fun result later =>
      outcome = .ok result ∧ later = world := by
  cases outcome with
  | ok result => exact .pure (.refl sound) ⟨rfl, rfl⟩
  | error cause => exact .throw (.refl sound)

end World
end JavaMachine
