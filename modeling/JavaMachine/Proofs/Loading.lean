import JavaMachine.Proofs.Definitions

/-!
# Loading finds what names stand for

However loads, definitions and links are nested, worlds evolve under loading, and a class that is
found is one to which the loader leads by the name. As that is one class at most, loaders give the
answers that they have given before.
-/

namespace JavaMachine.World

variable {load define : Load} {world later start : World} {loader : LoaderId} {name : String}
variable {id component : ClassId} {found : Option ClassId}

/-! ### Answers -/

/-- The world with an answer more. -/
def answered (world : World) (answer : LoaderAnswer) : World :=
  { world with answers := world.answers.push answer }

theorem Retains.answered (world : World) (answer : LoaderAnswer) :
    world.Retains (world.answered answer) where
  usable _ _ := rfl
  loaders := Nat.le_refl _
  chain _ _ := rfl
  sources _ _ := rfl
  strings _ _ known := known
  settled _ _ _ settled := settled
  answers place other given := by
    have present : place < world.answers.size := (Array.getElem?_eq_some_iff.1 given).1
    rw [World.answered, Array.getElem?_push, if_neg (Nat.ne_of_lt present), given]

theorem Settles.answered (world : World) (answer : LoaderAnswer) :
    world.Settles (world.answered answer) :=
  ⟨.answered world answer, rfl, fun _ => rfl, fun _ _ _ => rfl⟩

/-- All answers given before are there still. -/
theorem Retains.answers_size (retains : world.Retains later) :
    world.answers.size ≤ later.answers.size := by
  apply Nat.le_of_not_lt
  intro fewer
  have given := Array.getElem?_eq_getElem fewer
  have kept := retains.answers _ _ given
  rw [Array.getElem?_eq_none (Nat.le_refl _)] at kept
  cases kept

/-- An answer that agrees with those given before the question. -/
theorem Recalls.answered (recalls : later.Recalls) (sound : later.Sound)
    (retains : world.Retains later) {outcome : Except Error (Option ClassId)}
    (leads : ∀ id, outcome = .ok (some id) → later.LeadsTo loader name id)
    (again : ∀ (place : Nat) answer id, world.answers[place]? = some answer →
      answer.loader = loader → answer.name = name → answer.outcome = .ok (some id) →
        outcome = .ok (some id)) :
    (later.answered ⟨loader, name, world.answers.size, outcome⟩).Recalls := by
  have keeps := Retains.answered later ⟨loader, name, world.answers.size, outcome⟩
  have cases {place : Nat} {answer : LoaderAnswer}
      (given : (later.answered ⟨loader, name, world.answers.size, outcome⟩).answers[place]? =
        some answer) :
      place = later.answers.size ∧ answer = ⟨loader, name, world.answers.size, outcome⟩ ∨
        later.answers[place]? = some answer := by
    rw [World.answered, Array.getElem?_push] at given
    split at given
    next last =>
      cases given
      exact .inl ⟨last, rfl⟩
    next => exact .inr given
  constructor
  case earlier =>
    intro place answer given
    rcases cases given with ⟨rfl, rfl⟩ | old
    · exact retains.answers_size
    · exact recalls.earlier place answer old
  case leads =>
    intro place answer id given found
    rcases cases given with ⟨rfl, rfl⟩ | old
    · exact (leads id found).mono sound keeps
    · exact (recalls.leads place answer id old found).mono sound keeps
  case agree =>
    intro place answer given before earlier isEarlier givenBefore sameLoader sameName id found
    have below {count : Nat} (bound : count ≤ later.answers.size) (isEarlier : before < count) :
        later.answers[before]? = some earlier := by
      rcases cases givenBefore with ⟨rfl, _⟩ | old
      · omega
      · exact old
    rcases cases given with ⟨rfl, rfl⟩ | old
    · have present : before < world.answers.size := isEarlier
      have known := below retains.answers_size isEarlier
      have kept := retains.answers _ _ (Array.getElem?_eq_getElem present)
      rw [known] at kept
      cases kept
      exact again before _ id (Array.getElem?_eq_getElem present) sameLoader sameName found
    · have bound := recalls.earlier place answer old
      have placed := (Array.getElem?_eq_some_iff.1 old).1
      exact recalls.agree place answer old before earlier isEarlier
        (below (Nat.le_trans bound (Nat.le_of_lt placed)) isEarlier) sameLoader sameName id found

theorem Vetted.answered (vetted : world.Vetted) {answer : LoaderAnswer}
    (usable : ∀ id, answer.outcome = .ok (some id) → (world.type id).isUsable) :
    (world.answered answer).Vetted where
  classes id := by
    have keeps : world.KeepsUsable (world.answered answer) := fun _ _ => rfl
    exact (vetted.classes id).mono keeps (.of_eq rfl)
  answers other given id found := by
    rcases Array.mem_push.1 given with old | new
    · exact vetted.answers other old id found
    · exact usable id (new ▸ found)

theorem Evolves.answered (evolves : world.Evolves later) (answer : LoaderAnswer)
    (usable : ∀ id, answer.outcome = .ok (some id) → (later.type id).isUsable)
    (recalls : world.Regular → (later.answered answer).Recalls) :
    world.Evolves (later.answered answer) := by
  have retains := Retains.answered later answer
  exact {
    sound := evolves.sound.of_lasting rfl (fun _ => rfl) (.of_eq rfl) (fun _ _ _ => .inl)
      fun shaped => shaped
    grows := evolves.grows.trans ⟨Nat.le_refl _, fun _ _ => rfl, fun _ _ => rfl,
      fun _ absent => isFresh_of_absent absent, rfl, .of_eq rfl⟩
    vets := fun vetted => (evolves.vets vetted).answered usable
    settles := evolves.settles.trans (.answered later answer)
    regular := fun regular => (evolves.regular regular).of_changes evolves.sound retains
      (fun _ _ _ => .inl) (fun _ _ => .inl)
      ((evolves.regular regular).strings.of_same retains (.of_eq rfl) rfl)
      (fun _ _ _ declared linked => .inl ⟨declared, linked⟩) (recalls regular)
    strings := fun known => (evolves.strings known).of_same retains (.of_eq rfl) rfl
    leaves := evolves.leaves.trans (.of_eq rfl rfl) evolves.sound evolves.vets retains
      evolves.keepsUsable evolves.grows.objects (.of_eq rfl)
    pools := evolves.pools
    keepsMirrors := evolves.keepsMirrors
    mirrored := fun before => (evolves.mirrored before).of_lasting (fun _ => rfl) (fun _ => rfl)
      (.of_eq rfl) rfl }

theorem runFrom_answering (world : World) (loader : LoaderId) (name : String)
    (request : WorldM (Option ClassId)) :
    runFrom world (answering loader name request) =
      ((runFrom world request).1, (runFrom world request).2.answered
        ⟨loader, name, world.answers.size, (runFrom world request).1⟩) := rfl

/-- A request that finds a class to which the loader leads, the one to which it has led before if
there is one, may be answered. -/
theorem answering_ends {request : WorldM (Option ClassId)}
    {post : Option ClassId → World → Prop} (ends : Ends Evolves world request post)
    (leads : ∀ id later, world.Evolves later → post (some id) later →
      later.LeadsTo loader name id)
    (again : world.Regular → ∀ id, world.LeadsTo loader name id →
      (runFrom world request).1 = .ok (some id))
    (keeps : ∀ found later answer, world.Evolves later → post found later →
      post found (later.answered answer)) :
    Ends Evolves world (answering loader name request) post := by
  obtain ⟨evolves, gives⟩ := ends
  constructor
  · rw [runFrom_answering]
    refine evolves.answered _ (fun id found => ?_) fun regular => ?_
    · exact (leads id _ evolves (gives _ found)).isUsable evolves.sound
    refine (evolves.regular regular).recalls.answered evolves.sound evolves.retains
      (fun id found => leads id _ evolves (gives _ found)) ?_
    intro place answer id given sameLoader sameName found
    have ledTo := regular.recalls.leads place answer id given found
    rw [sameLoader, sameName] at ledTo
    exact again regular id ledTo
  · intro found given
    rw [runFrom_answering] at given ⊢
    exact keeps _ _ _ evolves (gives found given)

theorem Finding.answering {request : WorldM (Option ClassId)}
    (finding : Finding world loader name request) :
    Finding world loader name (answering loader name request) where
  ends := by
    refine answering_ends finding.ends (fun id _ _ ends => ends.leads id rfl) finding.again ?_
    intro found later answer evolves ends
    refine ⟨fun id same => ?_, fun none => (ends.absent none).mono (.answered later answer)⟩
    exact (ends.leads id same).mono evolves.sound (Retains.answered later answer)
  again regular id leads := by
    rw [runFrom_answering]
    exact finding.again regular id leads

/-! ### Names along a chain -/

/-- A definition lets the world unfold and defines a class under the name asked for, by a file of
the loader. Mirrors are in order once the name has been settled. -/
structure Definition (world : World) (loader : LoaderId) (name : String)
    (define : WorldM (Option ClassId)) : Prop where
  ends : Ends Unfolds world define (DefinedFrom (world.loader loader).sources world loader name)
  enters : world.EntersMirrored loader name define

/-- Names of declared classes are settled by definitions. -/
def Defines (define : Load) : Prop :=
  ∀ loader name, name.toList.head? ≠ some '[' → ∀ world : World, world.Sound →
    Definition world loader name (define loader name)

/-- The loaders are those that one loader asks, if there are any. -/
def AskedTogether (world : World) (loaders : List LoaderId) : Prop :=
  loaders = [] ∨ ∃ loader, loaders = world.delegates loader

theorem AskedTogether.mono {loaders : List LoaderId} (asked : world.AskedTogether loaders)
    (delegates : ∀ loader, later.delegates loader = world.delegates loader) :
    later.AskedTogether loaders := by
  refine asked.imp_right ?_
  rintro ⟨loader, same⟩
  exact ⟨loader, same.trans (delegates loader).symm⟩

/-- A loader is asked together with the loaders of its chain. -/
theorem AskedTogether.chain_eq {loaders : List LoaderId}
    (asked : world.AskedTogether (loader :: loaders)) :
    loaders = (world.loader loader).chain := by
  rcases asked with none | ⟨other, same⟩
  · cases none
  · obtain ⟨rfl, same⟩ := List.cons.inj same
    exact same

theorem AskedTogether.tail {loaders : List LoaderId} (sound : world.Sound)
    (asked : world.AskedTogether (loader :: loaders)) : world.AskedTogether loaders := by
  rw [asked.chain_eq]
  exact (sound.chains loader).imp_right fun ⟨parent, _, same⟩ => ⟨parent, same⟩

/-- What a name stands for along loaders that are asked together. -/
structure FoundAlong (loaders : List LoaderId) (name : String) (found : Option ClassId)
    (later : World) : Prop where
  entry : ∀ id, found = some id → ∃ definer ∈ loaders, later.findLoaded definer name = some id
  settled : found = none → ∀ loader ∈ loaders, later.HasLoader loader →
    later.settled? loader name = some none

theorem foundAlong_of_entry {loaders : List LoaderId} (membership : loader ∈ loaders)
    (entry : world.findLoaded loader name = some id) : FoundAlong loaders name (some id) world := by
  refine ⟨fun other same => ?_, nofun⟩
  cases same
  exact ⟨loader, membership, entry⟩

/-- Where no class was found none is found as long as there are no new loaders. -/
theorem FoundAlong.mono_none {loaders : List LoaderId} (along : FoundAlong loaders name none world)
    (retains : world.Retains later)
    (before : ∀ loader, later.HasLoader loader → world.HasLoader loader) :
    FoundAlong loaders name none later where
  entry := nofun
  settled _ loader among present :=
    retains.settled _ _ _ (along.settled rfl loader among (before loader present))

/-- The last loader has settled the name, after the others have found no class. -/
theorem FoundAlong.cons {loaders : List LoaderId} (none : FoundAlong loaders name none later)
    (settled : NameSettled loader name found later) :
    FoundAlong (loader :: loaders) name found later where
  entry := by
    rintro id rfl
    exact ⟨loader, List.mem_cons_self, settled.findLoaded⟩
  settled := by
    rintro rfl other membership present
    rcases List.mem_cons.1 membership with same | above
    · subst same
      exact settled.entry present
    · exact none.settled rfl other above present

/-- While the loaders that are asked before have no class with a name, definitions under the name
fit. -/
theorem Defines.fitting (defines : Defines define) {parents : List LoaderId} (sound : world.Sound)
    (plain : name.toList.head? ≠ some '[') (asked : world.AskedTogether (loader :: parents))
    (above : FoundAlong parents name none world) :
    Ends Unfolds (world.starting loader name) (define loader name)
      (Concludes world loader name) := by
  have keeps := keepsLoaders_modifyDirectory world loader fun directory => directory.start name
  have definition := (defines loader name plain _ (sound.starting loader name)).ends
  have sources : ((world.starting loader name).loader loader).sources =
      (world.loader loader).sources := by
    rw [starting, loader_modifyDirectory]
    split <;> rfl
  rw [sources] at definition
  refine definition.withLeads.mono fun found later ends => ?_
  obtain ⟨evolves, defined, none⟩ := ends
  refine ⟨fun id same => ?_, fun same => ⟨plain, none same⟩⟩
  obtain ⟨file, isFile, defined⟩ := defined id same
  have retains := (Retains.starting world loader name).trans evolves.retains
  have present : world.HasLoader loader := by
    have home := evolves.sound.homes id (present_of_isUsable defined.usable)
    rw [defined.loader] at home
    exact keeps.hasLoader_iff.1 (evolves.settles.hasLoader_iff.1 home)
  have laterAsked := (asked.mono keeps.delegates_eq).mono evolves.settles.delegates_eq
  have aboveStill := above.mono_none retains
    fun other present => keeps.hasLoader_iff.1 (evolves.settles.hasLoader_iff.1 present)
  refine defined.fitting plain (fun parent among => ?_) ?_ fun regular =>
    regular.starting sound loader name
  · refine aboveStill.settled rfl parent ?_ (evolves.sound.hasLoader_of_chain among)
    rw [laterAsked.chain_eq]
    exact among
  · rw [retains.fileFor_eq present]
    exact isFile

/-- A class that stands along the loaders is found, if it is the only one. -/
theorem outcome_loadAlong {loaders : List LoaderId}
    (entry : ∃ definer ∈ loaders, world.findLoaded definer name = some id)
    (unique : ∀ definer ∈ loaders, ∀ other, world.findLoaded definer name = some other →
      other = id) : (runFrom world (loadAlong define loaders name)).1 = .ok (some id) := by
  induction loaders with
  | nil => exact absurd entry (by simp)
  | cons loader parents inductionHypothesis =>
      rw [loadAlong, runFrom_answering, runFrom_bind_ok runFrom_get]
      cases known : world.findLoaded loader name with
      | some other =>
          rw [unique loader List.mem_cons_self other known]
          rfl
      | none =>
          obtain ⟨definer, membership, entry⟩ := entry
          have among : definer ∈ parents := by
            rcases List.mem_cons.1 membership with same | among
            · rw [same, known] at entry
              cases entry
            · exact among
          have above := inductionHypothesis ⟨definer, among, entry⟩ fun other among =>
            unique other (List.mem_cons_of_mem _ among)
          dsimp only
          rw [runFrom_bind_of_outcome above]
          rfl

theorem outcome_loadAlong_of_leadsTo {parents : List LoaderId} (regular : world.Regular)
    (sound : world.Sound) (asked : world.AskedTogether (loader :: parents))
    (plain : name.toList.head? ≠ some '[') (leads : world.LeadsTo loader name id) :
    (runFrom world (loadAlong define (loader :: parents) name)).1 = .ok (some id) := by
  rw [asked.chain_eq]
  refine outcome_loadAlong (leads.exists_definer plain) fun definer among other entry => ?_
  exact regular.leadsTo_unique sound leads (.named plain among entry)

theorem loadAlong_ends (defines : Defines define) (plain : name.toList.head? ≠ some '[')
    (loaders : List LoaderId) (sound : world.Sound) (asked : world.AskedTogether loaders) :
    Ends Evolves world (loadAlong define loaders name) (FoundAlong loaders name) := by
  induction loaders generalizing world with
  | nil => exact .pure (.refl sound) ⟨nofun, nofun⟩
  | cons loader parents inductionHypothesis =>
      have again (regular : world.Regular) (id : ClassId) (leads : world.LeadsTo loader name id) :
          (runFrom world (loadAlong define (loader :: parents) name)).1 = .ok (some id) :=
        outcome_loadAlong_of_leadsTo regular sound asked plain leads
      rw [loadAlong] at again ⊢
      refine answering_ends ?_ ?_ again fun _ _ _ _ along => ⟨along.entry, along.settled⟩
      · apply Ends.bindGet
        split
        next id entry => exact .pure (.refl sound) (foundAlong_of_entry List.mem_cons_self entry)
        next =>
          refine (inductionHypothesis sound (asked.tail sound)).bind
            fun found middle evolves above => ?_
          cases found with
          | some id =>
              obtain ⟨definer, membership, entry⟩ := above.entry id rfl
              exact .pure (.refl evolves.sound)
                (foundAlong_of_entry (List.mem_cons_of_mem _ membership) entry)
          | none =>
              have askedStill := asked.mono evolves.settles.delegates_eq
              have enters :=
                (defines loader name plain _ (evolves.sound.starting loader name)).enters
              refine (getOrDefine_ends loader name evolves.sound ?_ enters).withLeads.mono
                fun found later ends => (above.mono_none ends.1.retains ?_).cons ends.2
              · exact defines.fitting evolves.sound plain askedStill above
              · exact fun other => ends.1.settles.hasLoader_iff.1
      · intro id later evolves along
        obtain ⟨definer, among, entry⟩ := along.entry id rfl
        rw [(asked.mono evolves.settles.delegates_eq).chain_eq] at among
        exact .named plain among entry

theorem loadNamed_findsPlain (defines : Defines define) : (loadNamed define).FindsPlain := by
  intro loader name plain world sound
  have asked : world.AskedTogether (world.delegates loader) := .inr ⟨loader, rfl⟩
  constructor
  · apply Ends.bindGet
    have along := loadAlong_ends defines plain _ sound asked
    refine along.withLeads.mono fun found later ends => ⟨fun id same => ?_, fun none => ?_⟩
    · obtain ⟨definer, among, entry⟩ := ends.2.entry id same
      exact .named plain (ends.1.retains.mem_delegates among) entry
    · refine .plain plain ?_
      rw [ends.1.settles.delegates_eq]
      exact ends.2.settled none
  · intro regular id leads
    rw [loadNamed, runFrom_bind_ok runFrom_get]
    exact outcome_loadAlong_of_leadsTo regular sound asked plain leads

/-! ### Names of array classes -/

theorem runFrom_arrayClass {define : WorldM (Option ClassId)}
    (entry : world.findLoaded loader name = some id) :
    runFrom world (arrayClass loader name define) = (.ok id, world) :=
  runFrom_bind_ok (runFrom_getOrDefine (findLoaded_eq_some.1 entry))

theorem runFrom_referenceArrayOver
    (entry : world.findLoaded (world.type component).loader (world.type component).arrayName =
      some id) : runFrom world (referenceArrayOver load component) = (.ok id, world) := by
  rw [referenceArrayOver, runFrom_bind_ok runFrom_get]
  exact runFrom_arrayClass entry

/-- The array class to which a loader leads is found once its component is. -/
theorem outcome_loadArray (regular : world.Regular) (sound : world.Sound)
    {components : String → WorldM (Option ClassId)}
    (below : ∀ key, key.length < name.length → ∀ world : World, world.Sound →
      Finding world loader key (components key))
    (bracket : name.toList.head? = some '[') (leads : world.LeadsTo loader name id) :
    (runFrom world (loadArray load components name)).1 = .ok (some id) := by
  obtain ⟨type, written⟩ := regular.written_of_leadsTo bracket leads
  rcases regular.leadsTo_array written leads with
    ⟨element, rfl, entry⟩ | ⟨reference, component, leads, entry⟩
  · rw [loadArray, written]
    dsimp only
    rw [primitiveArrayOver, runFrom_bind_ok (runFrom_arrayClass entry)]
    rfl
  · have finding := below _ (FieldType.length_loadName_lt written) world sound
    have found : runFrom world (components type.loadName) =
        (.ok (some component), (runFrom world (components type.loadName)).2) :=
      runFrom_eq_of_outcome (finding.again regular component leads)
    have retains := finding.ends.leads.retains
    have usable := leads.isUsable sound
    have entryStill := retains.findLoaded entry
    rw [← retains.loader_eq usable, ← retains.arrayName_eq usable] at entryStill
    rw [loadArray, written]
    cases type with
    | primitive element => exact absurd rfl reference
    | object | array =>
        dsimp only
        rw [runFrom_bind_ok found]
        dsimp only
        rw [runFrom_bind_ok (runFrom_referenceArrayOver entryStill)]
        rfl

theorem loadAny_finding (defines : Defines define) (limit : Nat) (loader : LoaderId)
    (name : String) (enough : name.length ≤ limit) (sound : world.Sound) :
    Finding world loader name (loadAny define limit loader name) := by
  induction limit generalizing name world with
  | zero =>
      refine loadNamed_findsPlain defines loader name ?_ world sound
      rw [← String.length_toList, Nat.le_zero, List.length_eq_zero_iff] at enough
      rw [enough]
      exact nofun
  | succ limit inductionHypothesis =>
      have below (key : String) (shorter : key.length < name.length) (world : World)
          (sound : world.Sound) : Finding world loader key (loadAny define limit loader key) :=
        inductionHypothesis key (by omega) sound
      rw [loadAny]
      split
      next bracket =>
        apply Finding.answering
        constructor
        · apply Ends.bindGet
          split
          next id entry =>
            refine .pure (.refl sound) ⟨fun other same => ?_, nofun⟩
            cases same
            exact .entered bracket entry
          next => exact loadArray_ends (loadNamed_findsPlain defines) loader name below sound
        · intro regular id leads
          rw [runFrom_bind_ok runFrom_get]
          cases known : world.findLoaded loader name with
          | some other =>
              rw [regular.leadsTo_unique sound leads (.entered bracket known)]
              rfl
          | none => exact outcome_loadArray regular sound below bracket leads
      next plain => exact loadNamed_findsPlain defines loader name plain world sound

/-! ### Loading -/

theorem defines_throw (error : Error) : Defines fun _ _ => throw error := by
  intro _ _ _ _ sound
  refine ⟨.throw (Evolves.refl sound).toUnfolds, ?_, ?_⟩
  · intro found later result
    cases result
  · intro cause later result before
    cases result
    exact before

theorem defines_defineFrom (finds : load.Finds) :
    Defines (fun definer className => do
      defineFrom load definer className ((← get).loader definer).sources) := by
  intro loader name plain world sound
  have present (sources : (world.loader loader).sources ≠ []) : world.HasLoader loader := by
    apply Decidable.byContradiction
    intro absent
    rw [loader_eq_default absent] at sources
    exact sources rfl
  have enters := defineFrom_enters finds plain _ sound present
  exact ⟨.bindGet (defineFrom_ends finds plain _ sound present), enters.settling, enters.failing⟩

theorem loadWithin_finds (depth : Nat) : (loadWithin depth).Finds := by
  induction depth with
  | zero =>
      exact fun loader name _ sound =>
        loadAny_finding (defines_throw _) name.length loader name (Nat.le_refl _) sound
  | succ depth inductionHypothesis =>
      exact fun loader name _ sound =>
        loadAny_finding (defines_defineFrom inductionHypothesis) name.length loader name
          (Nat.le_refl _) sound

/-- Loading finds classes to which loaders lead. -/
theorem load_finds : Load.Finds World.load := by
  intro loader name world sound
  have finding := loadWithin_finds world.definitionLimit loader name world sound
  constructor
  · exact .bindGet finding.ends
  · intro regular id leads
    rw [World.load, runFrom_bind_ok runFrom_get]
    exact finding.again regular id leads

end JavaMachine.World
