import JavaMachine.Proofs.Undisturbed

/-!
# Only complete classes can be seen

Whatever a client does, what is published is complete. A class whose linking fails is left behind:
it has failed, nothing has been attached to it and nothing published leads to it, while what had
been published before, or was on the way, stays.
-/

namespace JavaMachine

namespace World

variable {world later : World} {id : ClassId}

/-- A sound and vetted world between two pieces of work. -/
structure Clean (world : World) : Prop where
  sound : world.Sound
  atRest : world.AtRest
  vetted : world.Vetted
  idle : ∀ loader name, ¬ world.Defining loader name

/-- A class whose linking has failed, with nothing that leads to it. -/
structure LeftBehind (world : World) (id : ClassId) : Prop where
  state : (world.type id).state = .initializationError
  unlinked : (world.type id).linkage? = none
  detached : (world.type id).pool? = none
  unlisted : ∀ loader name, world.findLoaded loader name ≠ some id
  unpublished : ¬ world.Published id

/-- What a directory lists it leads to. -/
theorem published_of_mem_classes {loader : LoaderId}
    (listed : id ∈ (world.loader loader).directory.classes) : world.Published id := by
  obtain ⟨found, membership, same⟩ := List.mem_filterMap.1 listed
  obtain ⟨⟨name, value⟩, entry, rfl⟩ := List.mem_map.1 membership
  dsimp only at same
  rw [show value = some id from same] at entry
  exact .entered (findLoaded_eq_some.2 (Table.find?_eq_some.2 entry))

theorem Clean.isComplete (clean : world.Clean) (published : world.Published id) :
    (world.type id).IsComplete :=
  (clean.vetted.classes id).isComplete (clean.vetted.isUsable_of_published clean.sound published)
    (clean.atRest id)

/-- What has failed and may not be handed out is left behind. -/
theorem Vetted.leftBehind (vetted : world.Vetted) (sound : world.Sound)
    (failed : (world.type id).state = .initializationError)
    (unusable : ¬ (world.type id).isUsable) : world.LeftBehind id := by
  have declared : ¬ (world.type id).isArray := mt Class.isUsable_of_isArray unusable
  have unlinked : (world.type id).linkage? = none := by
    by_contra linked
    exact unusable (Class.isUsable_of_linkage? (Option.isSome_iff_ne_none.2 linked))
  constructor
  · exact failed
  · exact unlinked
  · rw [← Option.not_isSome_iff_eq_none, (vetted.classes id).pool declared, unlinked]
    exact Bool.false_ne_true
  · exact fun loader name entry => unusable (sound.directories loader name id entry)
  · exact fun published => unusable (vetted.isUsable_of_published sound published)

/-- What may not be handed out is left behind. -/
theorem Clean.leftBehind (clean : world.Clean) (unusable : ¬ (world.type id).isUsable) :
    world.LeftBehind id :=
  clean.vetted.leftBehind clean.sound
    (((clean.vetted.classes id).unusable unusable).resolve_left (clean.atRest id)) unusable

/-! ### The course of things -/

/-- What operations do to a clean world: it stays so. -/
def Cleanly (world later : World) : Prop := world.Clean → later.Clean

theorem Lasts.clean (lasts : world.Lasts later) (clean : world.Clean) : later.Clean :=
  ⟨lasts.sound, lasts.grows.atRest clean.atRest, lasts.vets clean.vetted,
    fun loader name underWay => clean.idle loader name (lasts.idle loader name underWay)⟩

theorem cleanly_bears : Course.Bears Cleanly :=
  fun _ _ lasts clean => (lasts clean.sound clean.atRest).clean clean

instance : Course Cleanly where
  trans first second clean := second (first clean)
  develop develops clean := (develops clean.sound clean.atRest).toLasts.clean clean

/-- Array classes and classes that have failed move on to no other state. -/
instance : Course.Transits Cleanly where
  note world id occurrence clean :=
    ⟨clean.sound.of_lasting rfl (fun _ => rfl) (.of_eq rfl) (fun _ _ _ => .inl)
      fun shaped => shaped,
      clean.atRest, clean.vetted.of_classes rfl (.of_eq rfl) rfl, clean.idle⟩
  move world id state moves clean := by
    have vets := clean.vetted.classes id
    have stays (final : (world.type id).state.isTerminal) :
        state (world.type id) = (world.type id).state := by
      refine moves.resolve_right fun advances => ?_
      cases known : (world.type id).state <;> rw [known] at advances final <;>
        cases next : state (world.type id) <;> rw [next] at advances <;>
          simp [ClassState.canAdvanceTo, ClassState.isTerminal] at advances final
    refine ⟨clean.sound.withState id state, clean.atRest.withState moves, ?_, clean.idle⟩
    refine clean.vetted.withState (fun isArray => ?_) fun unusable => ?_
    · have final := vets.array isArray
      exact (stays (final ▸ rfl)).trans final
    · have failed := (vets.unusable unusable).resolve_left (clean.atRest id)
      exact .inr ((stays (failed ▸ rfl)).trans failed)

theorem clean_initial (sources : List Source) : (World.initial sources).Clean where
  sound := sound_initial sources
  atRest := (inOrder_initial sources).atRest
  vetted := by
    refine ⟨fun id => ?_, fun answer given => absurd given (Array.not_mem_empty answer)⟩
    rw [type_eq_default (Nat.zero_le _)]
    constructor
    · exact fun _ => Iff.rfl
    · exact nofun
    · exact fun _ => .inr rfl
    · exact nofun
    · exact nofun
    · exact nofun
    · exact nofun
    · exact nofun
    · exact nofun
  idle := (intact_initial sources).idle

theorem Reachable.clean (reachable : world.Reachable) : world.Clean := by
  obtain ⟨Client, α, callback, depth, program, sources, client, ends⟩ := reachable
  have runner : (callback.runner depth).Follows (Along Cleanly) :=
    runner_follows (fun _ follows id => initializing_follows follows id)
      (fun method arguments => (callback method arguments).abides_of_forall fun _ _ =>
        cleanly_bears) depth
  rw [← ends]
  exact run_follows runner (program.abides_of_forall fun _ _ => cleanly_bears)
    ⟨World.initial sources, client⟩ (clean_initial sources)

/-! ### Classes that fail -/

/-- A class that a file declares and whose linking fails is left behind. -/
theorem Vetted.linkWith_failed (vetted : world.Vetted) {load : Load} (finds : load.Finds)
    (sound : world.Sound) {file : ClassFile} {error : Error}
    (declared : (world.type id).declared? = some { file })
    (state : (world.type id).state = .allocated)
    (fails : runFrom world (linkWith load id) = (.error error, later)) : later.LeftBehind id := by
  obtain ⟨soundStill, vets, failed, lasting⟩ :=
    World.linkWith_failed finds sound declared state fails
  refine (vets vetted).leftBehind soundStill failed ?_
  rw [← Class.lasting_isUsable, lasting, Class.lasting_isUsable]
  simp [Class.isUsable, Class.isArray, Class.linkage?, declared]

/-- So is one that is added before that, while the world goes on. -/
theorem Clean.link_failed (clean : world.Clean) {loader : LoaderId} {file : ClassFile}
    {type : Class}
    {error : Error} (present : world.HasLoader loader)
    (allocated : Class.allocate file loader = .ok type)
    (fails : runFrom (world.addType type).2 (link world.nextId) = (.error error, later)) :
    world.Evolves later ∧ later.LeftBehind world.nextId := by
  obtain ⟨kind, state, mirror, home, heads⟩ := allocate_eq allocated
  have added : (world.addType type).2.type world.nextId = type := type_nextId_addType world type
  have declared : ((world.addType type).2.type world.nextId).declared? = some { file } := by
    rw [added, Class.declared?, kind]
  have addedState : ((world.addType type).2.type world.nextId).state = .allocated := by
    rw [added, state]
  have addedSound := clean.sound.addDeclared kind (home ▸ present) heads
  have addedVetted := clean.vetted.addType (vets_allocated kind state mirror)
  refine ⟨?_, addedVetted.linkWith_failed load_finds addedSound declared addedState fails⟩
  rcases linkWith_cases load_finds addedSound declared addedState with
    ⟨_, middle, evolves, _, ends⟩ | ⟨linkage, static, _, _, _, ends⟩
  · obtain ⟨_, rfl⟩ := Prod.mk.inj (fails.symm.trans ends)
    exact evolves_of_failed clean.sound addedSound kind state mirror evolves
  · obtain ⟨impossible, _⟩ := Prod.mk.inj (fails.symm.trans ends)
    cases impossible

/-- Only complete classes are published, and what a directory lists is. A class that is there but
may not be handed out, because its linking failed, in whatever course, is left behind. So is one
whose linking fails next, while no directory loses a class then, or when a name is loaded, whatever
comes of it. -/
theorem published_complete (reachable : world.Reachable) :
    (∀ loader, ∀ id ∈ (world.loader loader).directory.classes, world.Published id) ∧
    (∀ id, world.Published id → (world.type id).IsComplete) ∧
    (∀ id, ¬ (world.type id).isUsable → world.LeftBehind id) ∧
    (∀ loader file type error later, world.HasLoader loader →
      Class.allocate file loader = .ok type →
        runFrom (world.addType type).2 (link world.nextId) = (.error error, later) →
          later.LeftBehind world.nextId ∧ ∀ definer name id,
            world.findLoaded definer name = some id → later.findLoaded definer name = some id) ∧
    ∀ loader name definer other id, world.findLoaded definer other = some id →
      (runFrom world (load loader name)).2.findLoaded definer other = some id := by
  have clean := reachable.clean
  refine ⟨fun _ _ => published_of_mem_classes, fun _ => clean.isComplete,
    fun _ => clean.leftBehind, ?failed, ?kept⟩
  case failed =>
    intro loader file type error later present allocated fails
    obtain ⟨evolves, leftBehind⟩ := clean.link_failed present allocated fails
    exact ⟨leftBehind, fun _ _ _ => evolves.retains.findLoaded⟩
  case kept =>
    intro loader name definer other id entry
    exact (load_finds.evolving loader name world clean.sound).leads.retains.findLoaded entry

end World

/-! ### A class without its interface -/

namespace Unfinished

set_option maxRecDepth 20000

/-- The superclass of `Broken` is there, its interface is not. -/
def files : List (String × ClassFile) :=
  [("java/lang/Object", .withoutMembers 0x0021 "java/lang/Object" "" []),
    ("Part", .withoutMembers 0x0021 "Part" "java/lang/Object" []),
    ("Broken", .withoutMembers 0x0021 "Broken" "Part" ["Missing"])]

/-- The world after an attempt to load `Broken`. -/
def world : World :=
  ((Program.ask (.load .bootstrap "Broken") : Program Unit _).runWith
    (fun _ _ => .done (.ok none)) 0 ⟨.initial [.holding files], ()⟩).2.world

def broken : ClassId := ⟨0⟩
def part : ClassId := ⟨1⟩

/-- Another class without its interface. -/
def file : ClassFile := .withoutMembers 0x0021 "Other" "Part" ["Missing"]

theorem reachable : world.Reachable :=
  ⟨Unit, _, fun _ _ => .done (.ok none), 0, _, [.holding files], (), rfl⟩

/-- The attempt has failed, but the superclass has been loaded. -/
theorem attempted : (world.type broken).name = "Broken" ∧ ¬ (world.type broken).isUsable ∧
    world.findLoaded .bootstrap "Part" = some part := by
  decide +kernel

theorem link_fails : ((Class.allocate file .bootstrap).toOption.map fun type =>
    (runFrom (world.addType type).2 (World.link world.nextId)).1.toOption) = some none := by
  decide +kernel

end Unfinished

namespace World

/-- `Broken` is left behind, and so is the other class, while the superclass is there to be used. -/
theorem published_complete_unfinished : Unfinished.world.Reachable ∧
    Unfinished.world.LeftBehind Unfinished.broken ∧
    (Unfinished.world.type Unfinished.part).IsComplete ∧
    ∃ type error later, Class.allocate Unfinished.file .bootstrap = .ok type ∧
      runFrom (Unfinished.world.addType type).2 (link Unfinished.world.nextId) =
        (.error error, later) ∧ later.LeftBehind Unfinished.world.nextId ∧
          later.findLoaded .bootstrap "Part" = some Unfinished.part := by
  obtain ⟨_, complete, leftBehind, failed, _⟩ := published_complete Unfinished.reachable
  obtain ⟨_, unusable, entry⟩ := Unfinished.attempted
  refine ⟨Unfinished.reachable, leftBehind _ unusable, complete _ (.entered entry), ?_⟩
  obtain ⟨type, allocated, fails⟩ := Option.map_eq_some_iff.1 Unfinished.link_fails
  have allocated : Class.allocate Unfinished.file .bootstrap = .ok type := by
    cases known : Class.allocate Unfinished.file .bootstrap with
    | error cause => simp [known, Except.toOption] at allocated
    | ok other => simpa [known, Except.toOption] using allocated
  rcases ends : runFrom (Unfinished.world.addType type).2 (link Unfinished.world.nextId) with
    ⟨error | result, later⟩
  · have present := Unfinished.reachable.clean.sound.bootstrap
    obtain ⟨behind, kept⟩ := failed .bootstrap _ type error later present allocated ends
    exact ⟨type, error, later, allocated, ends, behind, kept _ _ _ entry⟩
  · rw [ends] at fails
    cases fails

end World
end JavaMachine
