import JavaMachine.Proofs.Relinking

/-!
# What was loaded once can be loaded again

A class that has been loaded into one world can be loaded into any other whose loaders ask the same
ones and have the same files, as long as nothing is under way there that its linking needs. What it
needs has been loaded before it, so its linking meets with no circle.
-/

namespace JavaMachine.World

variable {model world later : World} {loader : LoaderId} {name : String}
variable {id : ClassId} {file : ClassFile} {linkage : Linkage}

/-! ### Definitions -/

theorem linkWith_delivers {load : Load} {body : DeclaredClass} (finds : load.Finds)
    (sound : world.Sound) (declared : (world.type id).declared? = some body)
    (state : (world.type id).state = .allocated)
    (delivers : world.Delivers
      (linkDeclared load id (world.type id).loader (world.type id).name body.file)) :
    world.Delivers (linkWith load id) := by
  rcases linkWith_cases finds sound declared state with
    ⟨error, later, _, fails, _⟩ | ⟨linkage, static, later, _, _, ends⟩
  · obtain ⟨result, outcome⟩ := delivers
    rw [fails] at outcome
    cases outcome
  · exact ⟨(), congrArg Prod.fst ends⟩

/-- A class is defined by a file that declares its name where it can be linked. -/
theorem defineClass_delivers {load : Load} (finds : load.Finds) (sound : world.Sound)
    (present : world.HasLoader loader) (named : file.name? = some name)
    (plain : name.toList.head? ≠ some '[')
    (links : ∀ type, Class.allocate file loader = .ok type →
      (world.addType type).2.Delivers (linkDeclared load world.nextId loader name file)) :
    world.Delivers (defineClass load loader name file) := by
  let type : Class :=
    { name, flags := file.flags, loader, state := .allocated, kind := .declared { file } }
  have allocated : Class.allocate file loader = .ok type := by rw [Class.allocate, named]
  obtain ⟨kind, state, mirror, _, heads⟩ := allocate_eq allocated
  have addedType : (world.addType type).2.type world.nextId = type := type_nextId_addType world type
  have links : (world.addType type).2.Delivers (linkWith load world.nextId) := by
    have declared : ((world.addType type).2.type world.nextId).declared? = some { file } := by
      rw [addedType]
      rfl
    refine linkWith_delivers finds (sound.addAllocated present allocated) declared ?_ ?_
    · rw [addedType]
    · rw [addedType]
      exact links type allocated
  rcases linkWith_added finds sound present heads kind state mirror plain with
    ⟨error, later, _, fails⟩ | ⟨linked, unfolds, _, defined, ends⟩
  · obtain ⟨result, outcome⟩ := links
    rw [fails] at outcome
    cases outcome
  · obtain ⟨mirrored, outcome⟩ := ensureMirror_delivers unfolds.sound fun _ =>
      linkage?_of_isUsable defined.usable defined.declared
    rw [Delivers, runFrom_defineClass allocated rfl, runFrom_bind_ok ends,
      runFrom_bind_of_outcome outcome]
    exact ⟨world.nextId, rfl⟩

/-- The first source with a file is the one that matters. -/
theorem defineFrom_obtains {load : Load} {sources : List Source}
    (found : Source.findFirst? sources name = .ok (some file))
    (defines : world.Delivers (defineClass load loader name file)) :
    world.Obtains (defineFrom load loader name sources) := by
  induction sources with
  | nil => cases found
  | cons source rest inductionHypothesis =>
      cases known : source.find? name with
      | error cause =>
          rw [Source.findFirst?, known] at found
          cases found
      | ok own =>
          rw [Source.findFirst?_cons known] at found
          have asked : runFrom world (WorldM.ofLinking (source.find? name)) = (.ok own, world) := by
            rw [known]
            rfl
          rw [Obtains, defineFrom, runFrom_bind_ok asked]
          cases own with
          | none => exact inductionHypothesis found
          | some own =>
              cases found
              obtain ⟨id, outcome⟩ := defines
              refine ⟨id, ?_⟩
              dsimp only
              rw [runFrom_bind_of_outcome outcome]
              rfl

/-- A name is settled by its definition, unless that has been done before. -/
theorem getOrDefine_obtains {define : WorldM (Option ClassId)}
    (notAbsent : world.settled? loader name ≠ some none) (idle : ¬ world.Defining loader name)
    (defines : (world.starting loader name).Obtains define) :
    world.Obtains (getOrDefine loader name define) := by
  cases settled : world.settled? loader name with
  | some known =>
      rw [Obtains, runFrom_getOrDefine settled]
      cases known with
      | some id => exact ⟨id, rfl⟩
      | none => exact absurd settled notAbsent
  | none =>
      obtain ⟨id, defined⟩ := defines
      exact ⟨id, outcome_getOrDefine settled idle defined⟩

/-! ### Names of declared classes -/

/-- A class of the model can be defined once more where all it needs can be loaded. -/
theorem defineBySources_obtains (linked : (model.type id).linkage? = some linkage)
    (registered : model.Registered id)
    (supplies : ∀ needed, model.Needs id needed → model.Supplies load needed)
    (ready : model.Ready id world) (shares : model.Shares world (model.type id).loader)
    (topmost : world.Topmost loader (model.type id).name (model.type id).loader file)
    (isFile : (model.type id).file? = some file) :
    (world.starting (model.type id).loader (model.type id).name).Obtains
      (defineBySources (model.type id).loader (model.type id).name) := by
  have founded :=
    ready.regular.founded_of_registered registered (Class.not_isArray_of_linkage? linked)
  let start := world.starting (model.type id).loader (model.type id).name
  have readyStart (needed : ClassId) (needs : model.Needs id needed) :
      model.Ready needed start := by
    refine (ready.of_needs needs).starting (fun other reaches => ?_) fun _ none => ?_
    · exact founded.title_ne ready.sound ready.regular registered needs reaches
    · rw [topmost.has] at none
      cases none
  have comparable : model.Comparable start := ready.toComparable.starting _ _
  have present : start.HasLoader (model.type id).loader :=
    (keepsLoaders_modifyDirectory world _ _).hasLoader_iff.2 (hasLoader_of_fileFor topmost.has)
  have found : start.fileFor (model.type id).loader (model.type id).name = .ok (some file) :=
    ((alike_starting world _ _).files _ _).trans topmost.has
  have usable := Class.isUsable_of_linkage? (Option.isSome_of_eq_some linked)
  have named := (ready.sound.heads id (present_of_isUsable usable) file isFile).1
  have plain := (ready.sound.titles id usable).declared (Class.not_isArray_of_linkage? linked)
  refine defineFrom_obtains found (defineClass_delivers load_finds comparable.soundToo
    present named plain fun type allocated => ?_)
  obtain ⟨kind, _⟩ := allocate_eq allocated
  have unlinked := Class.linkage?_of_declared kind
  have settles := Settles.addType start type
  have sound := comparable.soundToo.addAllocated present allocated
  have regular := comparable.regularToo.addType comparable.soundToo unlinked
  exact linkDeclared_delivers load_finds linked isFile founded
    (comparable.of_settles sound regular settles)
    ((shares.of_alike (alike_starting world _ _)).of_alike settles.alike) supplies
    fun needed needs => (readyStart needed needs).of_settles sound regular settles

/-- The first loader with a file defines the class once those that it asks have found none. -/
theorem loadAlong_obtains (linked : (model.type id).linkage? = some linkage)
    (registered : model.Registered id)
    (supplies : ∀ needed, model.Needs id needed → model.Supplies load needed)
    (topmost : world.Topmost loader (model.type id).name (model.type id).loader file)
    (isFile : (model.type id).file? = some file) (loaders : List LoaderId)
    (ready : model.Ready id world) (shares : model.Shares world (model.type id).loader)
    (asked : world.AskedTogether loaders)
    (among : (model.type id).loader ∈ loaders) :
    world.Obtains (loadAlong defineBySources loaders (model.type id).name) := by
  have plain := (ready.regular.entries _ _ _ registered).placed.plain
    (Class.not_isArray_of_linkage? linked)
  induction loaders with
  | nil => cases among
  | cons first parents inductionHypothesis =>
      rw [Obtains, loadAlong, runFrom_answering, runFrom_bind_ok runFrom_get]
      cases entry : world.findLoaded first (model.type id).name with
      | some found => exact ⟨found, rfl⟩
      | none =>
          dsimp only
          have together := asked.tail ready.soundToo
          by_cases above : (model.type id).loader ∈ parents
          · obtain ⟨found, outcome⟩ := inductionHypothesis together above
            rw [runFrom_bind_of_outcome outcome]
            exact ⟨found, rfl⟩
          · obtain rfl : (model.type id).loader = first :=
              (List.mem_cons.1 among).resolve_right above
            rw [asked.chain_eq] at together ⊢
            have none := topmost.above
            have unfound := outcome_loadAlong_none defines_defineBySources abstains_defineBySources
              plain _ ready.soundToo ready.regularToo together none fun parent isAbove underWay =>
                ready.filed parent _ underWay plain (none parent isAbove)
            have evolves :=
              (loadAlong_ends defines_defineBySources plain _ ready.soundToo together).leads
            have ready := ready.mono evolves
            have topmost := topmost.of_alike evolves.settles.alike
            rw [runFrom_bind_of_outcome unfound]
            refine getOrDefine_obtains (fun settled => ?_) (ready.free id .refl)
              (defineBySources_obtains linked registered supplies ready
                (shares.of_alike evolves.settles.alike) topmost isFile)
            have none := (ready.regularToo.absent _ _ settled).noFile
            rw [topmost.has] at none
            cases none

/-- A class of the model can be loaded again: all it needs has been loaded before it. -/
theorem supplies_of_registered (sound : model.Sound) (regular : model.Regular)
    (registered : model.Registered id)
    (declared : ¬ (model.type id).isArray) : model.Supplies load id := by
  have founded := regular.founded_of_registered registered declared
  -- what linking the class needs can be loaded by the induction hypothesis
  induction founded.acc with
  | intro id _ inductionHypothesis =>
      have supplies (needed : ClassId) (needs : model.Needs id needed) :
          model.Supplies load needed := by
        obtain ⟨registered, declared⟩ := regular.registered_of_needs sound needs
        exact inductionHypothesis needed needs registered declared
          (regular.founded_of_registered registered declared)
      intro loader world ready shares among
      have usable := sound.directories _ _ _ registered
      obtain ⟨linkage, linked⟩ :=
        Option.isSome_iff_exists.1 (linkage?_of_isUsable usable declared)
      have plain := (regular.entries _ _ _ registered).placed.plain declared
      obtain ⟨file, topmost, isFile⟩ := regular.topmost_of_findLoaded plain among registered
      have among : (model.type id).loader ∈ world.delegates loader := by
        rw [shares.own]
        exact topmost.among
      rw [Obtains, ready.soundToo.load_of_plain plain, loadNamed, runFrom_bind_ok runFrom_get]
      exact loadAlong_obtains linked registered supplies (topmost.of_shares sound shares) isFile _
        ready (shares.of_delegate sound topmost.among) (.inr ⟨loader, rfl⟩) among

/-! ### What array classes inherit -/

/-- A world like the model in which no definitions are under way but those of array classes. -/
structure Calm (model world : World) : Prop extends model.Comparable world where
  arrays : ∀ loader name, world.Defining loader name → name.toList.head? = some '['

namespace Calm

theorem mono (calm : model.Calm world) (evolves : world.Evolves later) : model.Calm later :=
  ⟨calm.toComparable.mono evolves, fun loader name underWay =>
    calm.arrays loader name (evolves.settles.idle underWay)⟩

theorem starting (calm : model.Calm world) (bracket : name.toList.head? = some '[') :
    model.Calm (world.starting loader name) where
  toComparable := calm.toComparable.starting loader name
  arrays other key underWay := by
    rcases underWay.of_starting with same | before
    · cases same
      exact bracket
    · exact calm.arrays other key before

/-- All declared classes of the model can be loaded. -/
theorem ready (calm : model.Calm world) (registered : model.Registered id)
    (declared : ¬ (model.type id).isArray) : model.Ready id world where
  toComparable := calm.toComparable
  free needed reaches underWay := by
    obtain ⟨registered, declared⟩ :=
      calm.regular.registered_of_reaches calm.sound registered declared reaches
    exact (calm.regular.entries _ _ _ registered).placed.plain declared
      (calm.arrays _ _ underWay)
  filed loader name underWay plain := absurd (calm.arrays loader name underWay) plain

theorem load_some (calm : model.Calm world) (shares : model.Shares world loader)
    (plain : name.toList.head? ≠ some '[') (leads : model.LeadsTo loader name id) :
    world.Obtains (load loader name) := by
  obtain ⟨definer, among, entry⟩ := leads.exists_definer plain
  have registered := calm.regular.registered_of_findLoaded entry
  have declared := (calm.regular.entries _ _ _ entry).not_isArray plain
  obtain ⟨home, named⟩ := Prod.mk.inj (calm.regular.title_of_findLoaded entry)
  have supplies := supplies_of_registered calm.sound calm.regular registered declared
  obtain ⟨found, outcome⟩ :=
    supplies loader world (calm.ready registered declared) shares (home ▸ among)
  exact ⟨found, named ▸ outcome⟩

theorem load_none (calm : model.Calm world) (shares : model.Shares world loader)
    (plain : name.toList.head? ≠ some '[')
    (none : ∀ parent ∈ model.delegates loader, model.fileFor parent name = .ok none) :
    (runFrom world (load loader name)).1 = .ok .none := by
  refine calm.regularToo.load_none calm.soundToo plain (fun parent among => ?_)
    fun parent _ underWay => plain (calm.arrays parent name underWay)
  rw [shares.own] at among
  rw [shares.files parent among]
  exact none parent among

/-- What the bootstrap loader has settled it settles without failing. -/
theorem load_settled {found : Option ClassId} (calm : model.Calm world)
    (plain : name.toList.head? ≠ some '[')
    (settled : model.settled? .bootstrap name = some found) :
    world.Delivers (load .bootstrap name) := by
  cases found with
  | some id =>
      have leads := leadsTo_of_findLoaded (findLoaded_eq_some.2 settled)
      exact (calm.load_some calm.bootstrap plain leads).delivers
  | none =>
      refine ⟨none, calm.load_none calm.bootstrap plain fun parent among => ?_⟩
      rw [delegates, calm.sound.root, List.mem_singleton] at among
      rw [among]
      exact (calm.regular.absent _ _ settled).noFile

end Calm

section Arrays

variable {supertypes : ArraySupertypes} (calm : model.Calm world)
variable (above : model.AboveArrays supertypes)
include calm above

theorem arraySupertypes_delivers :
    world.Delivers (arraySupertypes (loadNamed defineBySources)) := by
  have finds := loadNamed_findsPlain defines_defineBySources
  have delivers {world : World} {name : String} {found : Option ClassId}
      (calm : model.Calm world) (plain : name.toList.head? ≠ some '[')
      (settled : model.settled? .bootstrap name = some found) :
      world.Delivers (loadNamed defineBySources .bootstrap name) := by
    have delivers := calm.load_settled plain settled
    rwa [Delivers, calm.soundToo.load_of_plain plain] at delivers
  obtain ⟨cloneable, serializable, settled, settledToo, _⟩ := above.interfaces
  have required :
      world.Delivers ((loadNamed defineBySources).required .bootstrap WellKnown.objectClass) := by
    have obtains : world.Obtains (loadNamed defineBySources .bootstrap WellKnown.objectClass) := by
      rw [Obtains, ← calm.soundToo.load_of_plain (by decide)]
      exact calm.load_some calm.bootstrap (by decide) (leadsTo_of_findLoaded above.superclass)
    exact obtains.required
  refine required.bind (finds.required_ends .bootstrap (by decide) calm.soundToo)
    fun superclass first evolves _ => ?_
  have calm := calm.mono evolves
  refine (delivers calm (by decide) settled).bind
    (finds .bootstrap _ (by decide) _ calm.soundToo).ends fun cloneable second evolves _ => ?_
  have calm := calm.mono evolves
  refine (delivers calm (by decide) settledToo).bind
    (finds .bootstrap _ (by decide) _ calm.soundToo).ends fun serializable third _ _ => ?_
  exact .pure _

end Arrays

/-! ### Array classes -/

/-- An array class comes in with its mirror. -/
theorem addArrayClass_obtains {flags : ClassFlags} {kind : ClassKind} (sound : world.Sound)
    (present : world.HasLoader loader) (titled : FieldType.IsArrayName name)
    (array : ∀ body, kind ≠ .declared body) :
    world.Obtains (addArrayClass name flags loader kind) := by
  let type : Class := { name, flags, loader, state := .fullyInitialized, kind }
  have isArray : type.isArray := isArray_of_kind array
  have unlinked := Class.linkage?_of_isArray isArray
  have addedSound : (world.addType type).2.Sound :=
    sound.addType unlinked present (Class.heads_of_isArray isArray) fun _ =>
      ⟨fun _ => titled, fun declared => absurd isArray declared⟩
  have named : ((world.addType type).2.type world.nextId).name = name :=
    congrArg Class.name (type_nextId_addType world type)
  have mirrors : (world.addType type).2.Delivers (ensureMirror world.nextId) :=
    ensureMirror_delivers addedSound fun plain =>
      absurd (named ▸ titled.head?) plain
  obtain ⟨mirrored, outcome⟩ := mirrors
  refine ⟨world.nextId, ?_⟩
  rw [addArrayClass, runFrom_modifyGet_bind]
  change (runFrom (world.addType type).2 do
    ensureMirror world.nextId
    return some world.nextId).1 = _
  rw [runFrom_bind_of_outcome outcome]
  rfl

theorem arrayClass_delivers {define : WorldM (Option ClassId)} (regular : world.Regular)
    (idle : ¬ world.Defining loader name) (bracket : name.toList.head? = some '[')
    (defines : (world.starting loader name).Obtains define) :
    world.Delivers (arrayClass loader name define) := by
  have known : world.Obtains (getOrDefine loader name define) :=
    getOrDefine_obtains (fun settled => (regular.absent _ _ settled).plain bracket) idle defines
  obtain ⟨id, outcome⟩ := known
  rw [Delivers, arrayClass, runFrom_bind_of_outcome outcome]
  exact ⟨id, rfl⟩

section Arrays

variable {supertypes : ArraySupertypes} (calm : model.Calm world)
variable (above : model.AboveArrays supertypes)
include calm above

/-- Array classes can be defined as soon as what they inherit can be loaded. -/
theorem arrayClassOver_delivers (idle : ¬ world.Defining loader name)
    (titled : FieldType.IsArrayName name) (present : world.HasLoader loader)
    (flags : ClassFlags) {kind : ArraySupertypes → ClassKind}
    (array : ∀ supertypes body, kind supertypes ≠ .declared body) :
    world.Delivers (arrayClass loader name do
      let supertypes ← arraySupertypes (loadNamed defineBySources)
      addArrayClass name flags loader (kind supertypes)) := by
  refine arrayClass_delivers calm.regularToo idle titled.head? ?_
  have calmStart : model.Calm (world.starting loader name) := calm.starting titled.head?
  obtain ⟨found, outcome⟩ := arraySupertypes_delivers calmStart above
  have evolves := (arraySupertypes_ends (loadNamed_findsPlain defines_defineBySources)
    calmStart.soundToo).leads
  have calmLater := calmStart.mono evolves
  rw [Obtains, runFrom_bind_of_outcome outcome]
  refine addArrayClass_obtains calmLater.soundToo ?_ titled (array found)
  exact evolves.settles.hasLoader_iff.2
    ((keepsLoaders_modifyDirectory world loader _).hasLoader_iff.2 present)

theorem primitiveArrayOver_delivers (element : Primitive)
    (idle : ∀ loader name, ¬ world.Defining loader name) :
    world.Delivers (primitiveArrayOver (loadNamed defineBySources) element) :=
  arrayClassOver_delivers calm above (idle _ _) (FieldType.isArrayName_ofPrimitives element)
    calm.soundToo.bootstrap _ fun _ _ same => by cases same

theorem referenceArrayOver_delivers {component : ClassId} (registered : world.Registered component)
    (titled : FieldType.IsArrayName (world.type component).arrayName)
    (idle : ∀ loader name, ¬ world.Defining loader name) :
    world.Delivers (referenceArrayOver (loadNamed defineBySources) component) := by
  apply Delivers.bindGet
  exact arrayClassOver_delivers calm above (idle _ _) titled
    (hasLoader_of_findLoaded registered) _ fun _ _ same => by cases same

end Arrays

/-! ### All names -/

/-- A world like the model in which no definitions are under way. -/
structure Quiet (model world : World) : Prop extends model.Comparable world where
  idle : ∀ loader name, ¬ world.Defining loader name

namespace Quiet

theorem calm (quiet : model.Quiet world) : model.Calm world :=
  ⟨quiet.toComparable, fun loader name underWay => absurd underWay (quiet.idle loader name)⟩

theorem of_settles (quiet : model.Quiet world) (sound : later.Sound) (regular : later.Regular)
    (settles : world.Settles later) : model.Quiet later :=
  ⟨quiet.toComparable.of_settles sound regular settles, fun loader name underWay =>
    quiet.idle loader name (settles.idle underWay)⟩

theorem mono (quiet : model.Quiet world) (evolves : world.Evolves later) : model.Quiet later :=
  quiet.of_settles evolves.sound (evolves.regular quiet.regularToo) evolves.settles

theorem loadAny_some_of_plain (quiet : model.Quiet world) (shares : model.Shares world loader)
    (limit : Nat) (plain : name.toList.head? ≠ some '[') (leads : model.LeadsTo loader name id) :
    world.Obtains (loadAny defineBySources limit loader name) := by
  rw [loadAny_of_plain _ _ plain, Obtains, ← quiet.soundToo.load_of_plain plain]
  exact quiet.calm.load_some shares plain leads

/-- An array class is found, or it is defined once its component is found. -/
theorem loadArray_over {type : FieldType} {limit : Nat} {supertypes : ArraySupertypes}
    (quiet : model.Quiet world) (above : model.AboveArrays supertypes)
    (written : FieldType.ofDescriptor? name = some (.array type)) (reference : ¬ type.isPrimitive)
    (enough : type.loadName.length ≤ limit)
    (below : world.Obtains (loadAny defineBySources limit loader type.loadName)) :
    world.Obtains (loadArray (loadNamed defineBySources) (loadAny defineBySources limit loader)
      name) := by
  obtain ⟨found, outcome⟩ := below
  have ends := (loadAny_finding defines_defineBySources limit loader _ enough quiet.soundToo).ends
  have later := quiet.mono ends.leads
  have leadsLater := (ends.gives _ outcome).leads found rfl
  have registered := later.regularToo.registered_of_leadsTo leadsLater
  have titled := later.soundToo.isArrayName_of_leadsTo written reference leadsLater
  obtain ⟨array, outcomeToo⟩ :=
    referenceArrayOver_delivers later.calm above registered titled later.idle
  rw [Obtains, loadArray, written]
  cases type with
  | primitive element => exact absurd rfl reference
  | object | array =>
      dsimp only
      rw [runFrom_bind_of_outcome outcome]
      dsimp only
      rw [runFrom_bind_of_outcome outcomeToo]
      exact ⟨array, rfl⟩

/-- An array class to which a loader leads in the model is found once more, after its component. -/
theorem loadArray_some {type : FieldType} {limit : Nat} (quiet : model.Quiet world)
    (written : FieldType.ofDescriptor? name = some (.array type))
    (leads : model.LeadsTo loader name id) (enough : type.loadName.length ≤ limit)
    (below : ∀ component, model.LeadsTo loader type.loadName component →
      world.Obtains (loadAny defineBySources limit loader type.loadName)) :
    world.Obtains (loadArray (loadNamed defineBySources) (loadAny defineBySources limit loader)
      name) := by
  have bracket := FieldType.head?_of_ofDescriptor?_array written
  obtain ⟨supertypes, above⟩ := quiet.regular.aboveArrays_of_leadsTo bracket leads
  rcases quiet.regular.leadsTo_array written leads with
    ⟨element, rfl, _⟩ | ⟨reference, component, leadsBelow, _⟩
  · obtain ⟨found, outcome⟩ := primitiveArrayOver_delivers quiet.calm above element quiet.idle
    rw [Obtains, loadArray, written]
    dsimp only
    rw [runFrom_bind_of_outcome outcome]
    exact ⟨found, rfl⟩
  · exact quiet.loadArray_over above written reference enough (below component leadsBelow)

/-- What has been entered under the name of an array class need not be found after its component. -/
theorem loadAny_obtains {limit : Nat} (bracket : name.toList.head? = some '[')
    (obtains : world.Obtains
      (loadArray (loadNamed defineBySources) (loadAny defineBySources limit loader) name)) :
    world.Obtains (loadAny defineBySources (limit + 1) loader name) := by
  rw [Obtains, loadAny, if_pos bracket, runFrom_answering, runFrom_bind_ok runFrom_get]
  cases world.findLoaded loader name with
  | some found => exact ⟨found, rfl⟩
  | none => exact obtains

/-- The class to which a loader leads in the model is found once more. -/
theorem loadAny_some (quiet : model.Quiet world) (shares : model.Shares world loader) (limit : Nat)
    (enough : name.length ≤ limit) (leads : model.LeadsTo loader name id) :
    world.Obtains (loadAny defineBySources limit loader name) := by
  induction limit generalizing name id with
  | zero =>
      refine quiet.loadAny_some_of_plain shares 0 ?_ leads
      rw [← String.length_toList, Nat.le_zero, List.length_eq_zero_iff] at enough
      rw [enough]
      exact nofun
  | succ limit inductionHypothesis =>
      by_cases plain : name.toList.head? ≠ some '['
      · exact quiet.loadAny_some_of_plain shares _ plain leads
      have bracket := not_not.1 plain
      obtain ⟨type, written⟩ := quiet.regular.written_of_leadsTo bracket leads
      have shorter := FieldType.length_loadName_lt written
      exact loadAny_obtains bracket (quiet.loadArray_some written leads (by omega) fun _ =>
        inductionHypothesis (by omega))

/-- An array class over a class to which a loader leads in the model is found. -/
theorem load_over {type : FieldType} {supertypes : ArraySupertypes} (quiet : model.Quiet world)
    (shares : model.Shares world loader) (above : model.AboveArrays supertypes)
    (written : FieldType.ofDescriptor? name = some (.array type)) (reference : ¬ type.isPrimitive)
    (leads : model.LeadsTo loader type.loadName id) : world.Obtains (load loader name) := by
  have shorter := FieldType.length_loadName_lt written
  obtain ⟨limit, long⟩ := Nat.exists_eq_add_of_lt shorter
  rw [Obtains, quiet.soundToo.load_unfolds, long]
  exact loadAny_obtains (FieldType.head?_of_ofDescriptor?_array written)
    (quiet.loadArray_over above written reference (by omega)
      (quiet.loadAny_some shares _ (by omega) leads))

theorem load_some (quiet : model.Quiet world) (shares : model.Shares world loader)
    (leads : model.LeadsTo loader name id) : world.Obtains (load loader name) := by
  rw [Obtains, quiet.soundToo.load_unfolds]
  exact quiet.loadAny_some shares _ (Nat.le_refl _) leads

end Quiet

/-! ### Names for which there is no file at the bottom -/

theorem Regular.not_leadsTo_of_missing (regular : world.Regular)
    (missing : world.Missing loader name) : ¬ world.LeadsTo loader name id := by
  induction missing generalizing id with
  | plain plain none =>
      intro leads
      obtain ⟨definer, among, entry⟩ := leads.exists_definer plain
      obtain ⟨file, topmost, _⟩ := regular.topmost_of_findLoaded plain among entry
      have absent := none definer among
      rw [topmost.has] at absent
      cases absent
  | array written reference _ inductionHypothesis =>
      intro leads
      rcases regular.leadsTo_array written leads with ⟨element, rfl, _⟩ | ⟨_, component, below, _⟩
      · exact reference rfl
      · exact inductionHypothesis below

theorem Missing.loadAny_none (missing : world.Missing loader name) (sound : world.Sound)
    (regular : world.Regular) (idle : ∀ loader name, ¬ world.Defining loader name) (limit : Nat)
    (enough : name.length ≤ limit) :
    (runFrom world (loadAny defineBySources limit loader name)).1 = .ok none := by
  induction missing generalizing limit with
  | plain plain none =>
      rw [loadAny_of_plain _ _ plain, ← sound.load_of_plain plain]
      exact regular.load_none sound plain none fun parent _ => idle parent _
  | @array name type written reference below inductionHypothesis =>
      have bracket := FieldType.head?_of_ofDescriptor?_array written
      have shorter := FieldType.length_loadName_lt written
      cases limit with
      | zero => omega
      | succ limit =>
          have outcome := inductionHypothesis limit (by omega)
          rw [loadAny, if_pos bracket, runFrom_answering, runFrom_bind_ok runFrom_get]
          cases entry : world.findLoaded loader name with
          | some id =>
              exact absurd (.entered bracket entry)
                (regular.not_leadsTo_of_missing (.array written reference below))
          | none =>
              dsimp only
              rw [loadArray, written]
              cases type with
              | primitive element => exact absurd rfl reference
              | object | array =>
                  dsimp only
                  rw [runFrom_bind_of_outcome outcome]
                  rfl

theorem Missing.load_none (missing : world.Missing loader name) (sound : world.Sound)
    (regular : world.Regular) (idle : ∀ loader name, ¬ world.Defining loader name) :
    (runFrom world (load loader name)).1 = .ok none := by
  rw [sound.load_unfolds]
  exact missing.loadAny_none sound regular idle _ (Nat.le_refl _)

end JavaMachine.World
