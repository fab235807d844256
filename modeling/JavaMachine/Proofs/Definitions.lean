import JavaMachine.Proofs.Attachment

/-!
# Definitions

A name is settled when its definition comes to an end. A class that is defined comes in with its
supertypes and has its place in the directory; one whose definition fails is left behind, and no
name leads to it. Mirrors are in order once the name has been settled, if they were when the
definition began.
-/

namespace JavaMachine

/-- Loading by names of declared classes finds classes to which loaders lead. -/
def Load.FindsPlain (load : Load) : Prop :=
  ∀ loader name, name.toList.head? ≠ some '[' → ∀ world : World, world.Sound →
    Finding world loader name (load loader name)

theorem Load.Finds.findsPlain {load : Load} (finds : load.Finds) : load.FindsPlain :=
  fun loader name _ => finds loader name

theorem Load.FindsPlain.required_ends {load : Load} (finds : load.FindsPlain) (loader : LoaderId)
    {name : String} (plain : name.toList.head? ≠ some '[') {world : World} (sound : world.Sound) :
    Ends World.Evolves world (load.required loader name) fun id later =>
      later.LeadsTo loader name id := by
  refine (finds loader name plain _ sound).ends.bind fun found later evolves holds => ?_
  cases found with
  | some id => exact .pure (.refl evolves.sound) (holds.leads id rfl)
  | none => exact .throw (.refl evolves.sound)

end JavaMachine

namespace JavaMachine.World

variable {load define : Load} {world later start : World} {loader : LoaderId} {name : String}
variable {id component : ClassId} {found : Option ClassId}

/-! ### Settling names -/

/-- A class that was found for a name has its place in the directory. -/
structure Fitting (start : World) (loader : LoaderId) (name : String) (id : ClassId)
    (later : World) : Prop where
  usable : (later.type id).isUsable
  loader : (later.type id).loader = loader
  name : (later.type id).name = name
  placed : start.Regular → later.Placed id

/-- A name is settled, to stand for a class only where the loader is there. -/
structure NameSettled (loader : LoaderId) (name : String) (found : Option ClassId) (later : World) :
    Prop where
  present : ∀ id, found = some id → later.HasLoader loader
  entry : later.HasLoader loader → later.settled? loader name = some found

theorem NameSettled.findLoaded (settled : NameSettled loader name (some id) world) :
    world.findLoaded loader name = some id :=
  findLoaded_eq_some.2 (settled.entry (settled.present id rfl))

theorem nameSettled_of_settled? (settled : world.settled? loader name = some found) :
    NameSettled loader name found world :=
  ⟨fun _ _ => hasLoader_of_settled? settled, fun _ => settled⟩

theorem settled?_settling (present : world.HasLoader loader) :
    (world.settling loader name found).settled? loader name = some found := by
  rw [settling, settled?_modifyDirectory, if_pos ⟨rfl, present⟩]
  simp [Directory.settle]

/-- What a definition has come to: a class in its place, or that the loader has no file for the
name. -/
structure Concludes (start : World) (loader : LoaderId) (name : String) (found : Option ClassId)
    (later : World) : Prop where
  fits : ∀ id, found = some id → Fitting start loader name id later
  absent : found = none → start.Absent loader name

/-- Where a definition ends mirrors are in order if they were before, after a success once the name
has been settled. -/
structure EntersMirrored (start : World) (loader : LoaderId) (name : String)
    (define : WorldM (Option ClassId)) : Prop where
  settling : ∀ found later, runFrom start define = (.ok found, later) →
    later.settled? loader name = none → start.Mirrored →
      (later.settling loader name found).Mirrored
  failing : ∀ error later, runFrom start define = (.error error, later) → start.Mirrored →
    later.Mirrored

/-- What has been found has a mirror if there are any. -/
def Shown (start : World) (found : Option ClassId) (later : World) : Prop :=
  ∀ id, found = some id → start.Mirrored → later.mirrorClass?.isSome →
    (later.type id).mirror.isSome

theorem EntersMirrored.of_shown {define : WorldM (Option ClassId)}
    (other : name ≠ WellKnown.classClass) (ends : Ends Evolves start define (Shown start)) :
    start.EntersMirrored loader name define where
  settling found later result undecided before := by
    obtain ⟨evolves, shown⟩ := ends.ok result
    exact (evolves.mirrored before).settling undecided (fun same => absurd same other)
      fun id same _ has => shown id same before has
  failing error later result before := (ends.error result).mirrored before

/-- A name that is settled already is not settled again. -/
theorem runFrom_getOrDefine {define : WorldM (Option ClassId)}
    (settled : world.settled? loader name = some found) :
    runFrom world (getOrDefine loader name define) = (.ok found, world) := by
  rw [settled?] at settled
  rw [getOrDefine, runFrom_bind_ok runFrom_get]
  dsimp only
  rw [settled]
  rfl

/-- The definition of a name that is under way is not begun again. -/
theorem runFrom_getOrDefine_circular {define : WorldM (Option ClassId)}
    (undecided : world.settled? loader name = none) (underWay : world.Defining loader name) :
    runFrom world (getOrDefine loader name define) =
      (.error (.linkage (.circularity name)), world) := by
  rw [settled?] at undecided
  rw [Defining] at underWay
  rw [getOrDefine, runFrom_bind_ok runFrom_get]
  dsimp only
  rw [undecided]
  dsimp only
  rw [if_pos underWay]
  rfl

/-- The definition of an open name settles it, or it fails and leaves the name open. -/
theorem runFrom_getOrDefine_open {define : WorldM (Option ClassId)}
    (undecided : world.settled? loader name = none) (idle : ¬ world.Defining loader name) :
    runFrom world (getOrDefine loader name define) =
      match runFrom (world.starting loader name) define with
      | (.ok found, defined) => (.ok found, defined.settling loader name found)
      | (.error error, defined) => (.error error, defined.stopping loader name) := by
  rw [settled?] at undecided
  rw [Defining] at idle
  rw [getOrDefine, runFrom_bind_ok runFrom_get]
  dsimp only
  rw [undecided]
  dsimp only
  rw [if_neg idle, runFrom_bind_ok runFrom_modify]
  rcases ends : runFrom (world.starting loader name) define with ⟨error | found, defined⟩
  · have failed : runFrom (world.starting loader name) (tryCatch define fun error => do
        modify fun world => world.stopping loader name
        throw error) = (.error error, defined.stopping loader name) :=
      runFrom_tryCatch_error ends
    exact runFrom_bind_error failed
  · exact runFrom_bind_ok (runFrom_tryCatch_ok ends)

/-- A name is settled as its definition says, unless the definition fails. -/
theorem getOrDefine_ends (loader : LoaderId) (name : String)
    {define : WorldM (Option ClassId)} (sound : world.Sound)
    (defines : Ends Unfolds (world.starting loader name) define (Concludes world loader name))
    (enters : (world.starting loader name).EntersMirrored loader name define) :
    Ends Evolves world (getOrDefine loader name define) (NameSettled loader name) := by
  cases undecided : world.settled? loader name with
  | some known =>
      exact .of_ok (runFrom_getOrDefine undecided) (.refl sound)
        (nameSettled_of_settled? undecided)
  | none =>
      by_cases underWay : world.Defining loader name
      · exact .of_error (runFrom_getOrDefine_circular undecided underWay) (.refl sound)
      · have opens := @runFrom_getOrDefine_open _ _ _ define undecided underWay
        have unfolds := defines.leads
        have concludes := defines.gives
        rcases ends : runFrom (world.starting loader name) define with ⟨error | found, defined⟩
        all_goals rw [ends] at opens unfolds concludes
        · refine .of_error opens ⟨unfolds.stopping sound undecided underWay, fun before => ?_⟩
          have failing := enters.failing error defined ends (before.starting loader name)
          exact failing.stopping loader name
        · have settles : world.Unfolds (defined.settling loader name found) := by
            refine unfolds.settling sound undecided underWay (fun id same => ?_)
              (concludes _ rfl).absent
            have fits := (concludes _ rfl).fits id same
            exact ⟨⟨fits.usable, fits.name⟩,
              fun regular => ⟨fits.loader, fits.name, fits.placed regular⟩⟩
          have mirrored (before : world.Mirrored) : (defined.settling loader name found).Mirrored :=
            enters.settling found defined ends (settled?_defined unfolds.settles undecided)
              (before.starting loader name)
          refine .of_ok opens ⟨settles, mirrored⟩ ⟨fun id same => ?_, fun present => ?_⟩
          · have fits := (concludes _ rfl).fits id same
            apply hasLoader_modifyDirectory.2
            rw [← fits.loader]
            exact unfolds.sound.homes id (present_of_isUsable fits.usable)
          · exact settled?_settling (hasLoader_modifyDirectory.1 present)

/-- A usable class is entered into a directory. -/
theorem register_ends (loader : LoaderId) (id : ClassId) (sound : world.Sound)
    (usable : (world.type id).isUsable) :
    Ends (fun world later => world.Lasts later ∧ world.LeavesContents later) world
      (register loader id) fun _ _ => True := by
  have stays : world.Lasts world ∧ world.LeavesContents world :=
    ⟨(Evolves.refl sound).toLasts, .refl world⟩
  apply Ends.bindGet
  dsimp only
  split
  · refine (Ends.set ⟨⟨?_, grows_modifyDirectory world loader _, fun vetted =>
      vetted.modifyDirectory loader _, fun _ _ => defining_of_modifyDirectory fun _ _ underWay =>
        underWay⟩, .of_eq rfl rfl⟩).mono fun _ _ _ => trivial
    apply sound.modifyDirectory
    intro name other found
    simp only [Directory.find?, Directory.settle, Table.find?_insert] at found
    split at found
    next same =>
      cases found
      exact .inr ⟨usable, same⟩
    next => exact .inl found
  · split
    · exact .pure stays trivial
    · exact .throw stays

/-! ### Declared classes -/

theorem allocate_eq {file : ClassFile} {type : Class}
    (allocated : Class.allocate file loader = .ok type) :
    type.kind = .declared { file } ∧ type.state = .allocated ∧ type.mirror = none ∧
      type.loader = loader ∧ type.Heads := by
  unfold Class.allocate at allocated
  split at allocated
  next named =>
    cases allocated
    refine ⟨rfl, rfl, rfl, rfl, fun own declared => ?_⟩
    cases declared
    exact ⟨named, rfl⟩
  · cases allocated

theorem Defined.mono {file : ClassFile} (defined : Defined start loader name file id world)
    (evolves : world.Evolves later) : Defined start loader name file id later where
  usable := evolves.keepsUsable.isUsable defined.usable
  loader := (evolves.retains.loader_eq defined.usable).trans defined.loader
  name := (evolves.retains.name_eq defined.usable).trans defined.name
  declared := by
    rw [evolves.retains.isArray_eq defined.usable]
    exact defined.declared
  isFile := (evolves.retains.file?_eq defined.usable).trans defined.isFile
  founded regular := (defined.founded regular).mono evolves.retains

theorem Defined.fitting {file : ClassFile} (defined : Defined start loader name file id later)
    (plain : name.toList.head? ≠ some '[')
    (first : ∀ parent ∈ (later.loader loader).chain, later.settled? parent name = some none)
    (found : later.fileFor loader name = .ok (some file))
    (regular : world.Regular → start.Regular) :
    Fitting world loader name id later where
  usable := defined.usable
  loader := defined.loader
  name := defined.name
  placed undisturbed := by
    refine .declared defined.declared (defined.name ▸ plain) ?_ defined.isFile ?_
      (defined.founded (regular undisturbed))
    · rw [defined.loader, defined.name]
      exact first
    · rw [defined.loader, defined.name]
      exact found

theorem runFrom_defineClass {file : ClassFile} {type : Class}
    (allocated : Class.allocate file loader = .ok type) (named : type.name = name) :
    runFrom world (defineClass load loader name file) = runFrom (world.addType type).2 do
      linkWith load world.nextId
      ensureMirror world.nextId
      return world.nextId := by
  rw [defineClass, allocated]
  change runFrom world (if type.name ≠ name then _ else _) = _
  rw [if_neg (not_not.2 named)]
  rfl

/-- A class is defined by a file: it fails to be linked, or it is given a mirror then. -/
theorem defineClass_cases (finds : load.Finds) (plain : name.toList.head? ≠ some '[')
    (file : ClassFile) (sound : world.Sound) (present : world.HasLoader loader) :
    (∃ error later, world.Evolves later ∧
      runFrom world (defineClass load loader name file) = (.error error, later)) ∨
    ∃ id linked later, world.Unfolds linked ∧
      (world.Mirrored → linked.MirroredBut (· = id)) ∧ Defined world loader name file id linked ∧
      runFrom linked (ensureMirror id) = (.ok (), later) ∧
      runFrom world (defineClass load loader name file) = (.ok id, later) := by
  cases allocated : Class.allocate file loader with
  | error cause =>
      refine .inl ⟨.linkage cause, world, .refl sound, ?_⟩
      rw [defineClass, allocated]
      rfl
  | ok type =>
      obtain ⟨kind, state, mirror, home, heads⟩ := allocate_eq allocated
      by_cases named : type.name = name
      · have opened := @runFrom_defineClass load world _ _ _ _ allocated named
        rcases linkWith_added finds sound (home ▸ present) heads kind state mirror
          (named ▸ plain) with ⟨error, later, evolves, ends⟩ |
            ⟨linked, unfolds, mirrored, defined, ends⟩
        · exact .inl ⟨error, later, evolves, opened.trans (runFrom_bind_error ends)⟩
        · obtain ⟨_, outcome⟩ := ensureMirror_delivers unfolds.sound fun _ =>
            linkage?_of_isUsable defined.usable defined.declared
          rw [home, named] at defined
          refine .inr ⟨world.nextId, linked, _, unfolds, mirrored, defined,
            runFrom_eq_of_outcome outcome, ?_⟩
          rw [opened, runFrom_bind_ok ends, runFrom_bind_of_outcome outcome]
          rfl
      · refine .inl ⟨.linkage (.wrongName name type.name), world, .refl sound, ?_⟩
        rw [defineClass, allocated]
        change runFrom world (if type.name ≠ name then _ else _) = _
        rw [if_pos named]
        rfl

theorem defineClass_ends (finds : load.Finds) (plain : name.toList.head? ≠ some '[')
    (file : ClassFile) (sound : world.Sound) (present : world.HasLoader loader) :
    Ends Unfolds world (defineClass load loader name file) (Defined world loader name file) := by
  rcases defineClass_cases finds plain file sound present with
    ⟨error, later, evolves, ends⟩ | ⟨id, linked, later, unfolds, _, defined, shows, ends⟩
  · exact .of_error ends evolves.toUnfolds
  · obtain ⟨evolves, _⟩ := (ensureMirror_ends id unfolds.sound).ok shows
    exact .of_ok ends (unfolds.trans evolves.toUnfolds) (defined.mono evolves)

/-- The class of which mirrors are instances is entered, when it and those that were entered before
it have been given mirrors. -/
theorem Reflects.settling {pending : ClassId → Prop} (reflects : Reflects id world later)
    (mirrored : world.MirroredBut (· = id)) (unknown : world.mirrorClass? = none)
    (present : later.HasLoader .bootstrap) (shown : (later.type id).mirror.isSome)
    (others : ∀ name other, world.findLoaded .bootstrap name = some other →
      (later.type other).mirror.isSome) :
    (later.settling .bootstrap WellKnown.classClass (some id)).MirroredBut pending := by
  have entry : (later.settling .bootstrap WellKnown.classClass (some id)).mirrorClass? =
      some id := by
    rw [mirrorClass?, findLoaded_settling, if_pos ⟨⟨rfl, present⟩, rfl⟩]
  constructor
  · intro other mirror has
    refine ⟨id, entry, (reflects.shows other mirror has).resolve_left fun before => ?_⟩
    rw [mirrored.mirror_eq_none unknown] at before
    cases before
  · intro _ name other found
    rw [findLoaded_settling] at found
    split at found
    next =>
      cases found
      exact shown
    next =>
      rw [findLoaded_eq_of_loaders reflects.loaders] at found
      exact others name other found
  · intro other _ usable isClass
    rw [entry]
    apply Decidable.byContradiction
    intro distinct
    have known : world.mirrorClass? = some other := by
      refine mirrored.entered other (fun same => distinct (congrArg some same.symm)) ?_ ⟨?_, ?_⟩
      · rw [← Class.lasting_isUsable, ← reflects.lasting, Class.lasting_isUsable]
        exact usable
      · rw [← Class.lasting_name, ← reflects.lasting, Class.lasting_name]
        exact isClass.name
      · rw [← Class.lasting_loader, ← reflects.lasting, Class.lasting_loader]
        exact isClass.loader
    rw [unknown] at known
    cases known

/-- A class that has been defined and given its mirror is entered. -/
theorem Defined.settling_mirrored {file : ClassFile} {linked : World}
    (defined : Defined world loader name file id linked) (sound : linked.Sound)
    (mirrored : linked.MirroredBut (· = id))
    (shows : runFrom linked (ensureMirror id) = (.ok (), later))
    (undecided : later.settled? loader name = none) :
    (later.settling loader name (some id)).Mirrored := by
  obtain ⟨evolves, shown⟩ := (ensureMirror_ends id sound).ok shows
  have present := present_of_isUsable defined.usable
  by_cases isClass : (linked.type id).IsMirrorClass
  · obtain rfl : loader = .bootstrap := defined.loader.symm.trans isClass.loader
    obtain rfl : name = WellKnown.classClass := defined.name.symm.trans isClass.name
    have unknown : linked.mirrorClass? = none := by
      rw [Option.eq_none_iff_forall_ne_some]
      intro other entry
      have entryLater := evolves.retains.findLoaded entry
      rw [findLoaded_eq_getD, undecided] at entryLater
      cases entryLater
    have reflects := ensureMirror_reflects isClass (mirrored.mirror_eq_none unknown id) sound
    obtain ⟨reflects, own, others⟩ := reflects.ok shows
    exact reflects.settling mirrored unknown evolves.sound.bootstrap (own present) others
  · have mirrored : linked.Mirrored := mirrored.mono fun other _ isClassToo same =>
      isClass (same ▸ isClassToo)
    refine (evolves.mirrored mirrored).settling undecided (fun named home => ?_)
      fun other same _ has => ?_
    · exact absurd ⟨defined.name.trans named, defined.loader.trans home⟩ isClass
    · cases same
      exact shown mirrored has present

theorem defineClass_enters (finds : load.Finds) (plain : name.toList.head? ≠ some '[')
    (file : ClassFile) (sound : world.Sound) (present : world.HasLoader loader) :
    world.EntersMirrored loader name do return some (← defineClass load loader name file) := by
  rcases defineClass_cases finds plain file sound present with
    ⟨error, later, evolves, ends⟩ | ⟨id, linked, later, unfolds, mirrored, defined, shows, ends⟩
  · have ends : runFrom world (do return some (← defineClass load loader name file)) =
        (.error error, later) := runFrom_bind_error ends
    constructor
    · intro found final result
      rw [ends] at result
      cases result
    · intro other final result before
      rw [ends] at result
      cases result
      exact evolves.mirrored before
  · have ends : runFrom world (do return some (← defineClass load loader name file)) =
        (.ok (some id), later) := runFrom_bind_ok ends
    constructor
    · intro found final result undecided before
      rw [ends] at result
      cases result
      exact defined.settling_mirrored unfolds.sound (mirrored before) shows undecided
    · intro other final result
      rw [ends] at result
      cases result

/-- A class that was defined by the file that some sources have for its name, or no class where they
have none. -/
structure DefinedFrom (sources : List Source) (start : World) (loader : LoaderId) (name : String)
    (found : Option ClassId) (later : World) : Prop where
  defined : ∀ id, found = some id → ∃ file, Source.findFirst? sources name = .ok (some file) ∧
    Defined start loader name file id later
  absent : found = none → Source.findFirst? sources name = .ok none

theorem defineFrom_ends (finds : load.Finds) (plain : name.toList.head? ≠ some '[')
    (sources : List Source) (sound : world.Sound)
    (present : sources ≠ [] → world.HasLoader loader) :
    Ends Unfolds world (defineFrom load loader name sources)
      (DefinedFrom sources world loader name) := by
  induction sources generalizing world with
  | nil => exact .pure (Evolves.refl sound).toUnfolds ⟨nofun, fun _ => rfl⟩
  | cons source rest inductionHypothesis =>
      have present := present (List.cons_ne_nil source rest)
      have asked := (@ofLinking_ends _ world (source.find? name) sound).relax fun _ =>
        Evolves.toUnfolds
      refine asked.bind fun found _ _ known => ?_
      obtain ⟨known, rfl⟩ := known
      have first := Source.findFirst?_cons known rest
      split
      next file =>
        refine (defineClass_ends finds plain file sound present).bind
          fun id later unfolds defined => ?_
        refine .pure (Evolves.refl unfolds.sound).toUnfolds ⟨fun other same => ?_, nofun⟩
        cases same
        exact ⟨file, first, defined⟩
      next =>
        refine (inductionHypothesis sound fun _ => present).mono fun found later ends => ?_
        exact ⟨fun id same => first ▸ ends.defined id same,
          fun none => first.trans (ends.absent none)⟩

theorem defineFrom_enters (finds : load.Finds) (plain : name.toList.head? ≠ some '[')
    (sources : List Source) (sound : world.Sound)
    (present : sources ≠ [] → world.HasLoader loader) :
    world.EntersMirrored loader name (defineFrom load loader name sources) := by
  induction sources with
  | nil =>
      constructor
      · intro found later result undecided before
        cases result
        exact before.settling undecided (fun _ _ => rfl) nofun
      · intro error later result
        cases result
  | cons source rest inductionHypothesis =>
      have present := present (List.cons_ne_nil source rest)
      unfold defineFrom
      cases source.find? name with
      | error cause =>
          constructor
          · intro found later result
            cases result
          · intro error later result before
            cases result
            exact before
      | ok found =>
          cases found with
          | some file => exact defineClass_enters finds plain file sound present
          | none => exact inductionHypothesis fun _ => present

/-! ### Array classes -/

/-- What array classes inherit is found by the bootstrap loader. -/
theorem arraySupertypes_ends (finds : load.FindsPlain) (sound : world.Sound) :
    Ends Evolves world (arraySupertypes load) fun supertypes later =>
      later.AboveArrays supertypes := by
  have bootstrapFound {name : String} (plain : name.toList.head? ≠ some '[') {world : World}
      (sound : world.Sound) {found : Option ClassId} (ends : Found .bootstrap name found world) :
      world.settled? .bootstrap name = some found := by
    cases found with
    | some id => exact findLoaded_eq_some.1 ((ends.leads id rfl).entry_of_bootstrap sound plain)
    | none => exact (ends.absent rfl).settled plain List.mem_cons_self sound.bootstrap
  refine (finds.required_ends .bootstrap (by decide) sound).bind
    fun superclass first evolves root => ?_
  refine (finds .bootstrap WellKnown.cloneableClass (by decide) _ evolves.sound).ends.bind
    fun cloneable second evolvesOn found => ?_
  refine (finds .bootstrap WellKnown.serializableClass (by decide) _ evolvesOn.sound).ends.bind
    fun serializable third evolvesLast foundToo => ?_
  have root := root.entry_of_bootstrap evolves.sound (by decide)
  have settled := bootstrapFound (by decide) evolvesOn.sound found
  refine .pure (.refl evolvesLast.sound) ⟨?_, cloneable, serializable, ?_, ?_, rfl⟩
  · exact (evolvesOn.retains.trans evolvesLast.retains).findLoaded root
  · exact evolvesLast.retains.settled _ _ _ settled
  · exact bootstrapFound (by decide) evolvesLast.sound foundToo

theorem isArray_of_kind {type : Class} (array : ∀ body, type.kind ≠ .declared body) :
    type.isArray := by
  rw [Class.isArray, Option.isNone_iff_eq_none, Option.eq_none_iff_forall_ne_some]
  intro body declared
  exact array body (Class.declared?_eq_some.1 declared)

/-- An array class that has come in. -/
structure ArrayAdded (start : World) (name : String) (loader : LoaderId) (kind : ClassKind)
    (id : ClassId) (later : World) : Prop where
  usable : (later.type id).isUsable
  name : (later.type id).name = name
  loader : (later.type id).loader = loader
  kind : (later.type id).kind = kind
  shown : start.Mirrored → later.mirrorClass?.isSome → (later.type id).mirror.isSome

theorem addArrayClass_ends (named : FieldType.IsArrayName name) (flags : ClassFlags)
    {kind : ClassKind} (array : ∀ body, kind ≠ .declared body) (sound : world.Sound)
    (present : world.HasLoader loader) (vets : world.Vetted → world.Vets world.nextId
      { name, flags, loader, state := .fullyInitialized, kind }) :
    Ends Evolves world (addArrayClass name flags loader kind)
      fun found later => (∀ id, found = some id → ArrayAdded world name loader kind id later) ∧
        found ≠ none := by
  let type : Class := { name, flags, loader, state := .fullyInitialized, kind }
  have isArray : type.isArray := isArray_of_kind array
  have titled : type.Titled := ⟨fun _ => named, fun declared => absurd isArray declared⟩
  refine (Ends.modifyGet (Evolves.addType sound isArray rfl rfl present titled vets)).bind
    fun id added evolves new => ?_
  obtain ⟨rfl, rfl⟩ := new
  have addedType : (world.addType type).2.type world.nextId = type := type_nextId_addType world type
  refine (ensureMirror_ends world.nextId evolves.sound).bind fun _ later evolvesOn shown => ?_
  refine .pure (.refl evolvesOn.sound) ⟨fun other same => ?_, nofun⟩
  cases same
  have isArrayThere : ((world.addType type).2.type world.nextId).isArray := by
    rw [addedType, isArray]
  have usable := Class.isUsable_of_isArray isArrayThere
  have retains := evolvesOn.retains
  refine ⟨evolvesOn.keepsUsable.isUsable usable, (retains.name_eq usable).trans ?_,
    (retains.loader_eq usable).trans ?_, (retains.kind_eq isArrayThere).trans ?_, ?_⟩
  · rw [addedType]
  · rw [addedType]
  · rw [addedType]
  · intro before has
    exact shown (evolves.mirrored before) has (present_of_isUsable usable)

theorem arrayClass_ends (loader : LoaderId) {define : WorldM (Option ClassId)}
    (bracket : name.toList.head? = some '[') (sound : world.Sound)
    (defines : Ends Evolves (world.starting loader name) define fun found later =>
      Concludes world loader name found later ∧ Shown (world.starting loader name) found later) :
    Ends Evolves world (arrayClass loader name define) fun id later =>
      later.findLoaded loader name = some id := by
  have other : name ≠ WellKnown.classClass := by
    rintro rfl
    exact absurd bracket (by decide)
  have concludes := (defines.relax fun _ => Evolves.toUnfolds).mono fun _ _ => And.left
  refine (getOrDefine_ends loader name sound concludes (.of_shown other
    (defines.mono fun _ _ => And.right))).bind fun found later evolves settled => ?_
  split
  next id => exact .pure (.refl evolves.sound) settled.findLoaded
  next => exact .throw (.refl evolves.sound)

theorem primitiveArrayOver_ends (finds : load.FindsPlain) (element : Primitive)
    (sound : world.Sound) :
    Ends Evolves world (primitiveArrayOver load element) fun id later =>
      later.findLoaded .bootstrap (FieldType.array (.primitive element)).descriptor = some id := by
  have titled := FieldType.isArrayName_ofPrimitives element
  refine arrayClass_ends _ titled.head? sound ?_
  refine (arraySupertypes_ends finds (sound.starting _ _)).bind
    fun supertypes middle evolves above => ?_
  refine (addArrayClass_ends titled _ (fun _ same => by cases same) evolves.sound
    evolves.sound.bootstrap fun _ => ?_).withLeads.mono fun found later ends => ?_
  · refine vets_array rfl rfl rfl (fun supertype membership => ?_) nofun nofun
    exact above.isLinked evolves.sound membership
  · obtain ⟨evolvesOn, added, notNone⟩ := ends
    refine ⟨⟨fun id same => ?_, fun none => absurd none notNone⟩, fun id same before => ?_⟩
    · have added := added id same
      exact ⟨added.usable, added.loader, added.name, fun _ =>
        .primitiveArray added.kind added.loader added.name (above.mono evolvesOn.retains)⟩
    · exact (added id same).shown (evolves.mirrored before)

/-- The class of a component determines that of the arrays. -/
theorem referenceArrayOver_ends (finds : load.FindsPlain) {type : FieldType} (sound : world.Sound)
    (written : FieldType.ofDescriptor? name = some (.array type)) (reference : ¬ type.isPrimitive)
    (leads : world.LeadsTo loader type.loadName component) :
    Ends Evolves world (referenceArrayOver load component) fun id later =>
      later.findLoaded (world.type component).loader (world.type component).arrayName =
        some id := by
  have usable := leads.isUsable sound
  have home := sound.homes component (present_of_isUsable usable)
  apply Ends.bindGet
  refine arrayClass_ends _ (Class.head?_arrayName _) sound ?_
  have startSound := sound.starting (world.type component).loader (world.type component).arrayName
  refine (arraySupertypes_ends finds startSound).bind fun supertypes middle evolves above => ?_
  have retains := (Retains.starting world _ _).trans evolves.retains
  refine (addArrayClass_ends (sound.isArrayName_of_leadsTo written reference leads) _
    (fun _ same => by cases same) evolves.sound (retains.hasLoader home)
    fun _ => ?_).withLeads.mono fun found later ends => ?_
  · refine vets_array rfl rfl rfl (fun supertype membership => ?_) (fun _ same => ?_)
      fun _ same => ?_
    · exact above.isLinked evolves.sound membership
    · cases same
      exact retains.usable.isUsable usable
    · cases same
      exact congrArg (· + 1) (retains.dimension_eq usable).symm
  obtain ⟨evolvesOn, added, notNone⟩ := ends
  refine ⟨⟨fun id same => ?_, fun none => absurd none notNone⟩, fun id same before =>
    (added id same).shown (evolves.mirrored before)⟩
  have added := added id same
  have retains := retains.trans evolvesOn.retains
  refine ⟨added.usable, added.loader, added.name, fun regular => ?_⟩
  obtain ⟨own, written, reference, below⟩ := regular.written_arrayName written reference leads
  refine .referenceArray added.kind
    ((regular.registered_of_leadsTo leads).mono sound retains) ?_ ?_ ?_
    (added.name.symm ▸ written) reference ?_ (above.mono evolvesOn.retains)
  · rw [added.loader, retains.loader_eq usable]
  · rw [added.name, retains.arrayName_eq usable]
  · rw [retains.dimension_eq usable]
  · rw [below, retains.name_eq usable]

theorem loadArray_ends (finds : load.FindsPlain) {components : String → WorldM (Option ClassId)}
    (loader : LoaderId) (name : String)
    (below : ∀ key, key.length < name.length → ∀ world : World, world.Sound →
      Finding world loader key (components key))
    (sound : world.Sound) :
    Ends Evolves world (loadArray load components name)
      (Found loader name) := by
  unfold loadArray
  split
  · exact .throw (.refl sound)
  next element written =>
    refine (primitiveArrayOver_ends finds element sound).bind fun id later evolves entry => ?_
    refine .pure (.refl evolves.sound) ⟨fun other same => ?_, nofun⟩
    cases same
    exact .primitiveArray written entry
  next type notPrimitive written =>
    have reference := FieldType.not_isPrimitive notPrimitive
    refine (below _ (FieldType.length_loadName_lt written) _ sound).ends.bind
      fun found later evolves ends => ?_
    cases found with
    | none =>
        exact .pure (.refl evolves.sound)
          ⟨nofun, fun _ => .array written reference (ends.absent rfl)⟩
    | some component =>
        have leads := ends.leads component rfl
        refine (referenceArrayOver_ends finds evolves.sound written reference leads).bind
          fun id final evolvesOn entry => ?_
        refine .pure (.refl evolvesOn.sound) ⟨fun other same => ?_, nofun⟩
        cases same
        have retains := evolvesOn.retains
        have usable := leads.isUsable evolves.sound
        refine .referenceArray written reference (leads.mono evolves.sound retains) ?_
        rw [retains.loader_eq usable, retains.arrayName_eq usable]
        exact entry
  · exact .throw (.refl sound)

end JavaMachine.World
