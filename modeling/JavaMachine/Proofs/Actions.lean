import JavaMachine.ArrayAccess
import JavaMachine.Proofs.Access
import JavaMachine.Proofs.Loading

/-!
# The other work on worlds

Loading from outside, allocating and storing, and what a machine does as a whole let a sound world
evolve as well, or develop at least where they store into fields and reference arrays.
-/

namespace JavaMachine.World

variable {world later : World}

/-! ### Loading from outside -/

theorem require_evolving (loader : LoaderId) (name : String) : Evolving (require loader name) :=
  Evolving.of_ends fun _ => Load.required_ends load_finds loader name

theorem intern_evolving (text : String) : Evolving (intern text) :=
  Load.intern_evolving load_finds text

theorem primitiveArrayClass_evolving (type : ValueType) : Evolving (primitiveArrayClass type) := by
  cases type with
  | primitive element =>
      exact Evolving.of_ends fun _ => primitiveArrayOver_ends load_finds.findsPlain element
  | void | object | array => exact Evolving.throw _

theorem arrayClassOf_evolving (component : ClassId) : Evolving (arrayClassOf component) := by
  apply Evolving.bindGet
  intro world
  exact require_evolving _ _

theorem bootstrap_evolving : Evolving bootstrap := by
  apply Evolving.bind (require_evolving _ _)
  intro _
  apply Evolving.bind (require_evolving _ _)
  intro _
  apply Evolving.bind (require_evolving _ _)
  intro _
  exact Evolving.pure ()

/-! ### Loaders -/

/-- Shutting down forgets names, but the world that is left is sound. -/
theorem lasts_shutDown (sound : world.Sound) : world.Lasts world.shutDown where
  sound := by
    have forgets : (world.modifyDirectory .bootstrap fun _ => {}).Sound := by
      apply sound.modifyDirectory
      intro name id found
      cases found
    exact forgets.of_lasting rfl (fun _ => rfl) (.of_eq rfl) (fun _ _ _ => .inl)
      fun shaped => shaped
  grows := ⟨Nat.le_refl _, fun _ _ => rfl, fun _ _ => rfl, fun _ absent => isFresh_of_absent absent,
    rfl, .of_eq rfl⟩
  vets vetted := vetted.of_classes rfl (.of_eq rfl) rfl
  idle _ _ underWay := by
    have before : (world.modifyDirectory .bootstrap fun _ => {}).Defining _ _ := underWay
    exact defining_of_modifyDirectory (fun _ _ underWay => by cases underWay) before

section AddLoader

variable (world : World) (name : String) (parent : LoaderId) (sources : List Source)

/-- The loader that a new loader asks first. -/
def presentLoader (world : World) (parent : LoaderId) : LoaderId :=
  if world.HasLoader parent then parent else .bootstrap

theorem Sound.hasLoader_presentLoader {world : World} (sound : world.Sound) (parent : LoaderId) :
    world.HasLoader (world.presentLoader parent) := by
  rw [presentLoader]
  split
  next present => exact present
  next => exact sound.bootstrap

theorem loader_addLoader (other : LoaderId) :
    (world.addLoader name parent sources).2.loader other =
      if other.index = world.loaders.size then
        { name, chain := world.delegates (world.presentLoader parent), sources }
      else world.loader other := by
  simp only [World.loader, addLoader, delegates, presentLoader, HasLoader,
    Array.getD_eq_getD_getElem?, Array.getElem?_push]
  split
  next => rfl
  next => rfl

variable {world name parent sources}

theorem hasLoader_addLoader {loader : LoaderId} (present : world.HasLoader loader) :
    (world.addLoader name parent sources).2.HasLoader loader := by
  simp only [HasLoader, addLoader, Array.size_push]
  exact Nat.lt_succ_of_lt present

theorem delegates_addLoader {loader : LoaderId} (present : world.HasLoader loader) :
    (world.addLoader name parent sources).2.delegates loader = world.delegates loader := by
  rw [delegates, loader_addLoader, if_neg (Nat.ne_of_lt present), delegates]

theorem settled?_addLoader (loader : LoaderId) (key : String) :
    (world.addLoader name parent sources).2.settled? loader key = world.settled? loader key := by
  rw [settled?, loader_addLoader]
  split
  next new => exact (settled?_eq_none (by simp [HasLoader, new])).symm
  next => rfl

theorem findLoaded_addLoader (loader : LoaderId) (key : String) :
    (world.addLoader name parent sources).2.findLoaded loader key =
      world.findLoaded loader key := by
  rw [findLoaded, Directory.find?, ← settled?, settled?_addLoader, settled?, ← Directory.find?,
    ← findLoaded]

theorem Retains.addLoader : world.Retains (world.addLoader name parent sources).2 where
  usable _ _ := rfl
  loaders := by simp [World.addLoader]
  chain loader present := by rw [loader_addLoader, if_neg (Nat.ne_of_lt present)]
  sources loader present := by rw [loader_addLoader, if_neg (Nat.ne_of_lt present)]
  strings _ _ known := known
  settled loader key found settled := by rw [settled?_addLoader, settled]
  answers _ _ given := given

/-- A new loader asks loaders that are there, and has no class yet. -/
theorem Sound.addLoader (sound : world.Sound) :
    (world.addLoader name parent sources).2.Sound where
  bootstrap := hasLoader_addLoader sound.bootstrap
  root := by rw [loader_addLoader, if_neg (Nat.ne_of_lt sound.bootstrap), sound.root]
  top loader present := by
    rw [delegates, loader_addLoader]
    split
    next =>
      exact List.mem_cons_of_mem _ (sound.top _ (sound.hasLoader_presentLoader parent))
    next old =>
      simp only [HasLoader, World.addLoader, Array.size_push] at present
      exact sound.top loader (Nat.lt_of_le_of_ne (Nat.le_of_lt_succ present) old)
  chains loader := by
    rw [loader_addLoader]
    split
    next =>
      have present := sound.hasLoader_presentLoader parent
      exact .inr ⟨_, hasLoader_addLoader present, (delegates_addLoader present).symm⟩
    next =>
      refine (sound.chains loader).imp_right ?_
      rintro ⟨next, present, same⟩
      exact ⟨next, hasLoader_addLoader present, same.trans (delegates_addLoader present).symm⟩
  directories loader key id entry := by
    rw [findLoaded_addLoader] at entry
    exact sound.directories loader key id entry
  names loader key id entry := by
    rw [findLoaded_addLoader] at entry
    exact sound.names loader key id entry
  titles := sound.titles
  homes id present := hasLoader_addLoader (sound.homes id present)
  heads := sound.heads
  links id file linkage declared linked :=
    (sound.links id file linkage declared linked).mono fun _ _ => rfl
  objects := sound.objects

theorem develops_addLoader (sound : world.Sound) :
    world.Develops (world.addLoader name parent sources).2 where
  sound := sound.addLoader
  grows := ⟨Nat.le_refl _, fun _ _ => rfl, fun _ _ => rfl, fun _ absent => isFresh_of_absent absent,
    rfl, .of_eq rfl⟩
  vets vetted := vetted.of_classes rfl (.of_eq rfl) rfl
  retains := .addLoader
  regular regular := by
    refine regular.of_changes sound .addLoader ?_ ?_
      (regular.strings.of_same .addLoader (.of_eq rfl) rfl)
      (fun _ _ _ declared linked => .inl ⟨declared, linked⟩)
      (regular.recalls.of_same sound .addLoader rfl)
    · intro loader key id entry
      exact .inl (findLoaded_addLoader loader key ▸ entry)
    · intro loader key settled
      exact .inl (settled?_addLoader loader key ▸ settled)
  strings known := known.of_same .addLoader (.of_eq rfl) rfl
  literals _ known := known.of_same .addLoader fun _ _ => rfl
  recollects versed := versed.known.recollects sound .addLoader fun _ _ _ => rfl
  idle loader key underWay := by
    rw [Defining, loader_addLoader] at underWay
    split at underWay
    · cases underWay
    · exact underWay
  keepsMirrors := .refl world
  mirrored before := before.of_same (fun _ => rfl) (.of_eq rfl) (findLoaded_addLoader .bootstrap)
    fun _ free usable isClass => ⟨free, usable, isClass⟩

end AddLoader

/-! ### Arrays and fields -/

/-- An object that was made for a class is there. -/
def Made (world : World) (type : ClassId) (object : ObjectId) : Prop :=
  object.index < world.objects.size ∧ (world.object object).type = type

theorem Made.mono {type : ClassId} {object : ObjectId} (made : world.Made type object)
    (objects : world.KeepsObjects later) : later.Made type object :=
  ⟨Nat.lt_of_lt_of_le made.1 objects.size, (objects.type_eq made.1).trans made.2⟩

theorem makeElements_ends {make : WorldM ObjectId} {type : ClassId}
    (making : ∀ world : World, world.Sound →
      Ends Evolves world make fun object later => later.Made type object)
    (count : Nat) (elements : Array (Option ObjectId)) (sound : world.Sound)
    (before : ∀ element, some element ∈ elements → world.Made type element) :
    Ends Evolves world (makeElements make count elements) fun made later =>
      ∀ element, some element ∈ made → later.Made type element := by
  induction count generalizing world elements with
  | zero => exact .pure (.refl sound) before
  | succ count inductionHypothesis =>
      refine (making world sound).bind fun made later evolves isMade => ?_
      refine inductionHypothesis (elements.push (some made)) evolves.sound fun element among => ?_
      rcases Array.mem_push.1 among with old | new
      · exact (before element old).mono evolves.grows.objects
      · exact Option.some_inj.1 new ▸ isMade

/-- The arrays that are made for each other's elements suit the component classes. -/
theorem allocateNested_ends (lengths : List Nat) (id : ClassId) (sound : world.Sound) :
    Ends Evolves world (allocateNested lengths id) fun array later => later.Made id array := by
  induction lengths generalizing world id with
  | nil => exact .throw (.refl sound)
  | cons length rest inductionHypothesis =>
      unfold allocateNested
      apply Ends.bindGet
      dsimp only
      split
      next component dimension supertypes kind =>
        have references := allocateReferences_ends id length sound
        split
        · exact references.mono fun array later made => ⟨made.1, by
            rw [← Object.lasting_fst, made.2]⟩
        · refine references.bind fun array later evolves made => ?_
          refine (makeElements_ends (fun _ => inductionHypothesis component) length #[]
            evolves.sound (by simp)).bind fun elements last evolvesOn suits => ?_
          have objects := evolvesOn.grows.objects
          have lasting := (objects.lasting array made.1).trans made.2
          have isArray : (last.object array).fields? = none :=
            Object.fields?_eq_none.2 (congrArg Prod.snd lasting)
          have stored : (⟨id, .references elements⟩ : Object).fields? = none := rfl
          have keeps : last.Keeps (last.setObject array ⟨id, .references elements⟩) :=
            .setObject (fun _ => (fresh_of_array stored).shaped) fun _ => lasting.symm
          have leaves : last.LeavesObjects (last.setObject array ⟨id, .references elements⟩) :=
            .setObject fun _ => stored.trans isArray.symm
          have known : (last.type id).component? = some component := by
            rw [(evolves.keepsUsable.trans evolvesOn.keepsUsable).component?_eq
              (Class.isUsable_of_isArray (Class.isArray_of_reference kind)), Class.component?, kind]
          have guards : last.Guards ⟨id, .references elements⟩ :=
            guards_of_component? known fun element among =>
              ⟨(suits element among).1, (suits element among).2 ▸ isAssignable_refl last _⟩
          refine (Ends.modify (.of_objects evolvesOn.sound keeps leaves rfl
            fun sound vetted guarded => guarded.setObject sound vetted (fun _ => lasting.symm)
              fun _ => guards)).bind fun _ final evolvesLast same => ?_
          refine .pure (.refl evolvesLast.sound) ?_
          have isMade : last.Made id array :=
            ⟨Nat.lt_of_lt_of_le made.1 objects.size, by rw [← Object.lasting_fst, lasting]⟩
          exact isMade.mono evolvesLast.grows.objects
      next element supertypes kind =>
        split
        · exact allocatePrimitives_ends id length sound
        · exact .throw (.refl sound)
      · exact .throw (.refl sound)

theorem allocateNested_evolving (lengths : List Nat) (id : ClassId) :
    Evolving (allocateNested lengths id) :=
  Evolving.of_ends fun _ => allocateNested_ends lengths id

section Change

variable {attempt : World → Except Error World}

theorem runFrom_change_ok (allowed : attempt world = .ok later) :
    runFrom world (change attempt) = (.ok (), later) := by
  rw [change, runFrom_bind_ok runFrom_get, allowed]
  rfl

theorem runFrom_change_error {error : Error} (refused : attempt world = .error error) :
    runFrom world (change attempt) = (.error error, world) := by
  rw [change, runFrom_bind_ok runFrom_get, refused]
  rfl

/-- A change of the world leads where the attempt does, or nowhere. -/
theorem change_leads {relation : World → World → Prop} (stays : relation world world)
    (leads : ∀ later, attempt world = .ok later → relation world later) :
    relation world (runFrom world (change attempt)).2 := by
  cases attempted : attempt world with
  | error error =>
      rw [runFrom_change_error attempted]
      exact stays
  | ok later =>
      rw [runFrom_change_ok attempted]
      exact leads later attempted

end Change

/-- What is stored into an object, which may be refused. -/
theorem stored_of_map {attempt : Except Error Object} {id : ObjectId}
    (stored : attempt.map (world.setObject id) = .ok later) :
    ∃ object, attempt = .ok object ∧ world.setObject id object = later := by
  cases attempt with
  | error error => cases stored
  | ok object =>
      cases stored
      exact ⟨object, rfl, rfl⟩

/-- Another object of the right shape is put into the place of one. -/
theorem develops_setObject {id : ObjectId} {object : Object} (sound : world.Sound)
    (shaped : world.Shaped (world.object id) → world.Shaped object)
    (lasting : object.lasting = (world.object id).lasting) :
    world.Develops (world.setObject id object) := by
  have keeps : world.Keeps (world.setObject id object) := .setObject shaped fun _ => lasting
  exact .of_keeps sound keeps (fun vetted => vetted.of_classes rfl keeps.objects rfl)
    (fun _ _ _ => rfl) fun _ => rfl

theorem put_putElement {object changed : Object} {className : String} {type : CellType}
    {index : Int32} {cell : type.Cell}
    (stored : object.putElement className type index cell = .ok changed) :
    (∃ elements, changed.body = .primitives elements) ∧ changed.lasting = object.lasting := by
  unfold Object.putElement at stored
  split at stored
  next elements body =>
    split at stored
    · cases stored
    · split at stored
      · cases stored
        exact ⟨⟨_, rfl⟩, by simp [Object.lasting, body]⟩
      · cases stored
  · cases stored

theorem put_putField {object changed : Object} {className : String} {slot : Option FieldSlot}
    {value : Value} (stored : object.putField className slot value = .ok changed) :
    (∀ world : World, world.Shaped object → world.Shaped changed) ∧
      changed.lasting = object.lasting := by
  unfold Object.putField at stored
  split at stored
  · cases stored
  · split at stored
    · cases stored
    · split at stored
      next fields attachment body =>
        split at stored
        · cases stored
          refine ⟨fun world shaped => ?_, by simp [Object.lasting, body]⟩
          rintro _ _ ⟨⟩
          simpa using shaped fields attachment body
        · cases stored
      · cases stored

theorem putElement_evolving (array : ObjectId) (type : CellType) (index : Int32)
    (cell : type.Cell) :
    Evolving (change fun world => world.putElement array type index cell) := by
  intro world sound
  refine ⟨change_leads (.refl sound) fun later stored => ?_, fun _ _ => trivial⟩
  obtain ⟨changed, put, rfl⟩ := stored_of_map stored
  obtain ⟨⟨elements, body⟩, lasting⟩ := put_putElement put
  have isArray : changed.fields? = none := by rw [Object.fields?, body]
  have keeps : world.Keeps (world.setObject array changed) :=
    .setObject (fun _ => (fresh_of_array isArray).shaped) fun _ => lasting
  have leaves : world.LeavesObjects (world.setObject array changed) :=
    .setObject fun _ => isArray.trans (Object.fields?_eq_none_of_lasting lasting isArray).symm
  refine .of_objects sound keeps leaves rfl fun sound vetted guarded => ?_
  refine guarded.setObject sound vetted (fun _ => lasting) fun present => ?_
  exact (guarded array present).of_body lasting fun _ same => by
    rw [body] at same
    cases same

/-- The elements of an array are no fields. -/
theorem leavesFields_putReference {array : ObjectId} {index : Int32} {element : Option ObjectId}
    (stored : world.putReference array index element = .ok later) : world.LeavesFields later := by
  obtain ⟨changed, put, rfl⟩ := stored_of_map stored
  obtain ⟨elements, place, body, _, rfl⟩ := Object.putReference_eq_ok.1 put
  refine .of_lasting (.setObject fun _ => ?_) (fun _ => rfl) fun _ => rfl
  rw [Object.fields?, Object.fields?, body]

/-- An element of a reference array is changed. -/
theorem develops_putReference (array : ObjectId) (index : Int32) (element : Option ObjectId)
    (sound : world.Sound) : world.Develops
      (runFrom world (change fun world => world.putReference array index element)).2 := by
  refine change_leads (Evolves.refl sound).toDevelops fun later stored => ?_
  obtain ⟨changed, put, rfl⟩ := stored_of_map stored
  obtain ⟨elements, place, body, _, rfl⟩ := Object.putReference_eq_ok.1 put
  exact develops_setObject sound (fun _ => (fresh_of_array rfl).shaped)
    (by simp [Object.lasting, body])

/-- A field of an object is changed. -/
theorem develops_putField (object : ObjectId) (slot : Option FieldSlot) (value : Value)
    (sound : world.Sound) :
    world.Develops (runFrom world (change fun world => world.putField object slot value)).2 := by
  refine change_leads (Evolves.refl sound).toDevelops fun later stored => ?_
  obtain ⟨changed, put, rfl⟩ := stored_of_map stored
  obtain ⟨shaped, lasting⟩ := put_putField put
  exact develops_setObject sound (shaped world) lasting

/-- A static value is changed. -/
theorem develops_withStatic (sound : world.Sound) (id : ClassId)
    (static : DeclaredClass → Array Value) : world.Develops
      (world.modifyDeclared id fun body => { body with static := static body }) := by
  have keeps : world.Keeps
      (world.modifyDeclared id fun body => { body with static := static body }) :=
    .modifyDeclared world id (fun _ => rfl) fun _ => rfl
  have keepsUsable : world.KeepsUsable
      (world.modifyDeclared id fun body => { body with static := static body }) :=
    fun other _ => keeps.lasting other
  refine .of_keeps sound keeps (fun vetted => ?_) (fun other => resolved?_eq_of_pool ?_)
    (sameMirrors_modifyDeclared world id _)
  · refine vetted.of_changes keepsUsable keeps.objects (fun other => ?_) rfl
    rw [modifyDeclared, type_modifyType]
    split
    next same =>
      rw [← same.1]
      split
      next body declared =>
        exact .inr (((vetted.classes id).withStatic declared _).mono keepsUsable keeps.objects)
      next => exact .inl rfl
    next => exact .inl rfl
  · rw [modifyDeclared, type_modifyType]
    split
    · split
      next body declared => simp [Class.pool?, Class.declared?, declared]
      next => rfl
    · rfl

theorem develops_putStatic (id : ClassId) (slot : Option FieldSlot) (value : Value)
    (sound : world.Sound) :
    world.Develops (runFrom world (change fun world => world.putStatic id slot value)).2 := by
  refine change_leads (Evolves.refl sound).toDevelops fun later stored => ?_
  unfold putStatic at stored
  split at stored
  · cases stored
  · split at stored
    · cases stored
    · split at stored
      · cases stored
      · split at stored
        · cases stored
          exact develops_withStatic sound id _
        · cases stored

end JavaMachine.World
