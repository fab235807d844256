import JavaMachine.Proofs.Hierarchy
import JavaMachine.Proofs.Protocol

/-!
# Initialization

However clients run methods and whatever these do in turn, initialization keeps a world in order. It
goes along the superclasses, which lead on as far as there are any, and each class is initialized
within the initialization of the one before it in the list.
-/

namespace JavaMachine

namespace World

variable {world : World} {id : ClassId}

/-! ### Calling the initializer -/

theorem getElem?_type (present : id.index < world.classes.size) :
    world.classes[id.index]? = some (world.type id) := by
  simp [World.type, Array.getD_eq_getD_getElem?, present]

/-- What a class finds as its static initializer is its own. -/
theorem Sound.isOwnInitializer (sound : world.Sound) {method : Method}
    (found : (world.type id).declaredMethod? WellKnown.staticInitializer WellKnown.noArguments =
      some method) (isStatic : method.isStatic) : IsOwnInitializer world.classes id method := by
  cases linked : (world.type id).linkage? with
  | none => simp [Class.declaredMethod?, Class.methods, linked] at found
  | some linkage =>
      obtain ⟨key, declares⟩ := (sound.find?_declared linked _ method).1 found
      obtain ⟨name, descriptor⟩ := MethodTables.methodKey_eq key (by decide) (by decide)
      have present : id.index < world.classes.size := by
        apply Nat.lt_of_not_ge
        intro absent
        rw [type_eq_default absent] at linked
        cases linked
      have owner := declares.owner
      obtain ⟨file, declared, member, membership, read⟩ := declares
      exact ⟨name, descriptor, isStatic, owner, world.type id, file, getElem?_type present,
        declared, member, membership, read⟩

end World

variable {Client : Type} {run : Runner Client} {machine : Machine Client} {id : ClassId}
variable {before : World}

theorem runFrom_world (machine : Machine Client) :
    runFrom machine MachineM.world = (.ok machine.world, machine) := rfl

theorem runFrom_note (machine : Machine Client) (id : ClassId) (occurrence : Occurrence) :
    runFrom machine (note id occurrence) =
      (.ok (), { machine with world := machine.world.note id occurrence }) := rfl

theorem runFrom_outcome {α : Type} {action : MachineM Client α} {outcome : Except Error α}
    {later : Machine Client} (ends : runFrom machine action = (outcome, later)) :
    runFrom machine (MachineM.outcome action) = (.ok outcome, later) := by
  change (Except.ok (runFrom machine action).1, (runFrom machine action).2) = _
  rw [ends]

/-- The initialization goes on, and a fault of the protocol is one a method has answered with. -/
structure Attempts (id : ClassId) (before : World) (ended : Except Error Unit × Machine Client) :
    Prop where
  within : World.Within id before ended.2.world
  answered : ∀ error, ended.1 = .error error → error.IsProtocolFault →
    ended.2.world.journal.Answered error

section Methods

variable (follows : ∀ method arguments,
  Follows Machine.self (Along World.Keeping) (run method arguments))
include follows

theorem callInitializer_attempts (within : World.Within id before machine.world)
    {initializer : Method}
    (lawful : IsLawfulCall machine.world.classes machine.world.journal id initializer) :
    Attempts id before (runFrom machine (callInitializer run id initializer)) := by
  let calling : Machine Client :=
    { machine with world := machine.world.note id (.called initializer) }
  have called : World.Within id before calling.world := within.call lawful
  have keeps := (follows initializer []).leads calling called.inOrder
  rcases ends : runFrom calling (run initializer []) with ⟨outcome, later⟩
  rw [ends] at keeps
  have answered := (called.proceeds keeps).answer outcome
  have ended : runFrom machine (callInitializer run id initializer) =
      runFrom { later with world := later.world.note id (.answered outcome) }
        (discard (ofExcept outcome)) := by
    rw [callInitializer, runFrom_bind_ok (runFrom_note _ _ _),
      runFrom_bind_ok (runFrom_outcome ends), runFrom_bind_ok (runFrom_note _ _ _)]
  rw [ended]
  cases outcome with
  | ok result => exact ⟨answered, fun _ same => by cases same⟩
  | error error =>
      refine ⟨answered, fun other same _ => ?_⟩
      cases same
      exact ⟨_, List.mem_cons_self, rfl⟩

theorem runInitializer_attempts (within : World.Within id before machine.world)
    (superclass : SuperclassSettled machine.world.classes id)
    (first : ¬ machine.world.journal.Called id) :
    Attempts id before (runFrom machine (runInitializer run id)) := by
  have idle : Attempts id before ((.ok (), machine) : Except Error Unit × Machine Client) :=
    ⟨within, fun _ same => by cases same⟩
  rw [runInitializer, runFrom_bind_ok (runFrom_world machine)]
  dsimp only
  split
  next method found =>
    split
    next isStatic =>
      apply callInitializer_attempts follows within
      have own := within.inOrder.sound.isOwnInitializer found isStatic
      exact ⟨within.stateIn, own, superclass, first⟩
    next => exact idle
  next => exact idle

end Methods

/-! ### Initializing along the superclasses -/

/-- The class needs no initialization, or it is under way or over. -/
def World.Settled (world : World) (id : ClassId) : Prop :=
  (world.type id).isArray ∨ stateIn world.classes id = some .beingInitialized ∨
    stateIn world.classes id = some .fullyInitialized

/-- What comes of a request to initialize a class, or of none if there is no class. -/
structure Initializes (before : World) (id : Option ClassId)
    (ended : Except Error Unit × Machine Client) : Prop where
  proceeds : before.Proceeds ended.2.world
  settled : ended.1 = .ok () → ∀ type, id = some type → ended.2.world.Settled type
  answered : ∀ error, ended.1 = .error error → error.IsProtocolFault →
    ended.2.world.journal.Answered error

/-- A request that fails before its failure is entered into the journal. -/
inductive Fails (id : ClassId) (before : World) :
    Except Error Unit × Machine Client → Prop where
  /-- The class has failed before. -/
  | refused {machine : Machine Client} {error : Error} (inOrder : before.InOrder)
      (same : machine.world = before) (failed : (before.type id).state = .initializationError)
      (harmless : ¬ error.IsProtocolFault) : Fails id before (.error error, machine)
  /-- The class fails now. -/
  | failed {machine : Machine Client} {world : World} {error : Error}
      (within : World.Within id before world) (marked : machine.world = world.markFailed id)
      (answered : error.IsProtocolFault → world.journal.Answered error) :
      Fails id before (.error error, machine)

theorem Fails.initializes {ended : Except Error Unit × Machine Client}
    (fails : Fails id before ended) {error : Error} (outcome : ended.1 = .error error) :
    Initializes before (some id) (.error error,
      { ended.2 with world := ended.2.world.note id (.failed error) }) := by
  cases fails with
  | refused inOrder same failed harmless =>
      cases outcome
      refine ⟨?_, fun succeeds => ?_, fun other same fault => ?_⟩
      · simp only [same]
        exact inOrder.refuse failed harmless
      · cases succeeds
      · cases same
        exact absurd fault harmless
  | failed within marked answered =>
      cases outcome
      refine ⟨?_, fun succeeds => ?_, fun other same fault => ?_⟩
      · simp only [marked]
        exact within.fail answered
      · cases succeeds
      · cases same
        obtain ⟨moment, membership, answering⟩ := answered fault
        simp only [marked]
        exact ⟨moment, List.mem_cons_of_mem _ membership, answering⟩

theorem initializerError_fault {error : Error}
    (fault : (initializerError error).IsProtocolFault) : initializerError error = error := by
  cases error with
  | runtime exception => exact absurd fault id
  | linkage | internal => rfl

/-- The initialization of the superclass settles it for the class. -/
theorem World.Within.superclassSettled {world : World} (within : World.Within id before world)
    (declared : ¬ (world.type id).isArray)
    (initializes : Initializes world (world.type id).superclass? (.ok (), machine)) :
    SuperclassSettled machine.world.classes id := by
  intro type superclass found above
  have lasting := initializes.proceeds.growth.lasting id within.present
  rw [World.type_eq_of_getElem? found] at lasting
  have sameSuperclass := congrArg Class.superclass? lasting
  have sameKind := congrArg Class.isArray lasting
  simp only [Class.lasting_superclass?, Class.lasting_isArray] at sameSuperclass sameKind
  apply (initializes.settled rfl superclass (sameSuperclass ▸ above)).resolve_left
  apply initializes.proceeds.inOrder.sound.superclass_not_isArray
  · rw [World.type_eq_of_getElem? found, sameKind]
    exact declared
  · rw [World.type_eq_of_getElem? found]
    exact above

theorem runFrom_onWorld {α : Type} {action : WorldM α} {outcome : Except Error α} {later : World}
    (ends : runFrom machine.world action = (outcome, later)) :
    runFrom machine (MachineM.onWorld action) = (outcome, { machine with world := later }) := by
  change ((runFrom machine.world action).1,
    { machine with world := (runFrom machine.world action).2 }) = _
  rw [ends]

/-- The initializer of a class whose initialization begins has not been called before. -/
theorem World.InOrder.not_called_begin (inOrder : before.InOrder)
    (linked : (before.type id).state = .linked) {classes : Array Class} :
    ¬ Journal.Called (⟨id, .begun, classes⟩ :: before.journal) id := by
  rintro ⟨moment, membership, type, initializer, calling⟩
  rcases List.mem_cons.1 membership with new | old
  · subst new
    cases calling
  · apply (inOrder.called id ⟨moment, old, type, initializer, calling⟩).2
    rw [stateIn_eq_some_of_ne (by simp)]
    exact linked

/-- With the end of an attempt the class is initialized, or it fails. -/
theorem attempt_cases {action : MachineM Client Unit}
    (attempts : Attempts id before (runFrom machine action)) :
    let ended := runFrom machine (do
      tryCatch action (fun error => do
        MachineM.onWorld (modify fun world => world.markFailed id)
        throw (initializerError error))
      MachineM.onWorld (World.advance id .fullyInitialized)
      note id .completed)
    ended.1 = .ok () ∧ Initializes before (some id) ended ∨ Fails id before ended := by
  intro ended
  rcases ends : runFrom machine action with ⟨error | _, later⟩
  all_goals
    rw [ends] at attempts
    obtain ⟨within, answered⟩ := attempts
  · right
    have failed : ended = (.error (initializerError error),
        { later with world := later.world.markFailed id }) := by
      apply runFrom_bind_error
      rw [runFrom_tryCatch_error ends, runFrom_bind_ok (runFrom_onWorld runFrom_modify)]
      rfl
    rw [failed]
    refine .failed within rfl fun fault => ?_
    have same := initializerError_fault fault
    rw [same] at fault ⊢
    exact answered error rfl fault
  · left
    have state := (stateIn_eq_some.1 within.stateIn).2
    have completes := runFrom_onWorld (World.runFrom_advance (by
      rw [state]
      rfl : (later.world.type id).state.canAdvanceTo .fullyInitialized))
    have done : ended = (.ok (), { later with
        world := (later.world.withState id fun _ => .fullyInitialized).note id .completed }) := by
      simp only [ended]
      rw [runFrom_bind_ok (runFrom_tryCatch_ok ends), runFrom_bind_ok completes]
      rfl
    rw [done]
    refine ⟨rfl, within.complete, fun _ type same => ?_, fun error fails => ?_⟩
    · cases same
      exact .inr (.inr (World.stateIn_withState _ within.present))
    · cases fails

section Methods

variable (follows : ∀ method arguments,
  Follows Machine.self (Along World.Keeping) (run method arguments))
include follows

/-- After its superclass a class is initialized by its own initializer. -/
theorem superclassFirst_attempts (within : World.Within id before machine.world)
    (first : ¬ machine.world.journal.Called id) (declared : ¬ (machine.world.type id).isArray)
    {superclasses : MachineM Client Unit}
    (initializes : Initializes machine.world (machine.world.type id).superclass?
      (runFrom machine superclasses)) :
    Attempts id before (runFrom machine (do superclasses; runInitializer run id)) := by
  rcases ends : runFrom machine superclasses with ⟨error | _, above⟩
  all_goals rw [ends] at initializes
  · rw [runFrom_bind_error ends]
    exact ⟨within.proceeds initializes.proceeds, initializes.answered⟩
  · rw [runFrom_bind_ok ends]
    apply runInitializer_attempts follows (within.proceeds initializes.proceeds)
    · exact within.superclassSettled declared initializes
    · intro called
      apply first
      apply initializes.proceeds.growth.calls id _ called
      rw [within.active]
      exact List.mem_cons_self

/-- A linked class is initialized, or it fails. -/
theorem initializeLinked_cases (inOrder : machine.world.InOrder)
    (linked : (machine.world.type id).state = .linked)
    (declared : ¬ (machine.world.type id).isArray) {superclasses : MachineM Client Unit}
    (initializes : ∀ begun : Machine Client, begun.world.InOrder →
      (∀ other, (begun.world.type other).lasting = (machine.world.type other).lasting) →
        Initializes begun.world (machine.world.type id).superclass?
          (runFrom begun superclasses)) :
    let ended := runFrom machine (initializeLinked run id superclasses)
    ended.1 = .ok () ∧ Initializes machine.world (some id) ended ∨
      Fails id machine.world ended := by
  let advanced := machine.world.withState id fun _ => .beingInitialized
  let begun : Machine Client := { machine with world := advanced.note id .begun }
  have within : World.Within id machine.world begun.world := inOrder.begin linked
  have lasting (other : ClassId) :
      (begun.world.type other).lasting = (machine.world.type other).lasting :=
    World.lasting_withState machine.world id other _
  have advances := runFrom_onWorld (World.runFrom_advance (by
    rw [linked]
    rfl : (machine.world.type id).state.canAdvanceTo .beingInitialized))
  rw [initializeLinked, runFrom_bind_ok advances, runFrom_bind_ok (runFrom_note _ _ _)]
  apply attempt_cases
  apply superclassFirst_attempts follows within (inOrder.not_called_begin linked)
  · rwa [← Class.lasting_isArray, lasting, Class.lasting_isArray]
  · rw [← Class.lasting_superclass?, lasting, Class.lasting_superclass?]
    exact initializes begun within.inOrder lasting

/-- A class is initialized as its state asks for it, or it fails. -/
theorem initializeFrom_cases (inOrder : machine.world.InOrder) {superclasses : MachineM Client Unit}
    (initializes : ¬ (machine.world.type id).isArray → ∀ begun : Machine Client,
      begun.world.InOrder →
        (∀ other, (begun.world.type other).lasting = (machine.world.type other).lasting) →
          Initializes begun.world (machine.world.type id).superclass?
            (runFrom begun superclasses)) :
    let ended := runFrom machine (initializeFrom run id superclasses)
    ended.1 = .ok () ∧ Initializes machine.world (some id) ended ∨
      Fails id machine.world ended := by
  intro ended
  have settled (settled : machine.world.Settled id) :
      Initializes machine.world (some id) (.ok (), machine) :=
    ⟨.refl inOrder, fun _ _ same => Option.some_inj.1 same ▸ settled, fun _ same => by cases same⟩
  simp only [ended]
  rw [initializeFrom, runFrom_bind_ok (runFrom_world machine)]
  dsimp only
  split
  next isArray => exact .inl ⟨rfl, settled (.inl isArray)⟩
  next declared =>
    split
    next state =>
      exact .inl ⟨rfl, settled (.inr (.inr ((stateIn_eq_some_of_ne (by simp)).2 state)))⟩
    next state =>
      exact .inl ⟨rfl, settled (.inr (.inl ((stateIn_eq_some_of_ne (by simp)).2 state)))⟩
    next state => exact .inr (.refused inOrder rfl state fun fault => fault)
    next state => exact absurd state (inOrder.atRest _)
    next state => exact initializeLinked_cases follows inOrder state declared (initializes declared)

/-- Initializing along a list initializes its first class. -/
theorem initializeAlong_initializes (ids : List ClassId) (machine : Machine Client)
    (inOrder : machine.world.InOrder) (chained : machine.world.Chained ids) :
    Initializes machine.world ids.head? (runFrom machine (initializeAlong run ids)) := by
  induction ids generalizing machine with
  | nil =>
      refine ⟨.refl inOrder, fun _ _ none => ?_, fun _ fails => ?_⟩
      · cases none
      · cases fails
  | cons id superclasses inductionHypothesis =>
      have cases := initializeFrom_cases follows inOrder fun declared begun begunOrder lasting => by
        obtain ⟨next, chained⟩ := chained declared
        rw [← next]
        exact inductionHypothesis begun begunOrder (chained.of_lasting lasting)
      rcases ends : runFrom machine (initializeFrom run id (initializeAlong run superclasses))
        with ⟨error | _, later⟩
      all_goals rw [ends] at cases
      · have failed : runFrom machine (initializeAlong run (id :: superclasses)) =
            (.error error, { later with world := later.world.note id (.failed error) }) := by
          rw [initializeAlong, runFrom_tryCatch_error ends, runFrom_bind_ok (runFrom_note _ _ _)]
          rfl
        rw [failed]
        rcases cases with ⟨done, _⟩ | fails
        · cases done
        · exact fails.initializes rfl
      · rw [initializeAlong, runFrom_tryCatch_ok ends]
        rcases cases with ⟨_, initializes⟩ | fails
        · exact initializes
        · cases fails

/-- The list of superclasses begins with the class itself. -/
theorem initializeClass_initializes (inOrder : machine.world.InOrder) (id : ClassId) :
    Initializes machine.world (some id) (runFrom machine (initializeClass run id)) := by
  have chained := inOrder.sound.chained_superclasses id
  have initializes := initializeAlong_initializes follows _ machine inOrder chained
  rw [World.superclasses, World.head?_superclassesWithin] at initializes
  rw [initializeClass, runFrom_bind_ok (runFrom_world machine)]
  exact initializes

/-- Initialization goes on in order if methods do. -/
theorem initializeClass_follows (id : ClassId) :
    Follows Machine.self (Along World.Keeping) (initializeClass run id) :=
  ⟨fun _ inOrder => (initializeClass_initializes follows inOrder id).proceeds⟩

end Methods

/-- The programs of a client keep a world in order, however deep calls are nested. -/
theorem runner_keeping (callback : Callback Client) (depth : Nat) :
    (callback.runner depth).Follows (Along World.Keeping) :=
  runner_follows (fun _ follows id => initializeClass_follows follows id)
    (fun method arguments => (callback method arguments).abides_of_forall fun _ _ =>
      World.keeping_bears) depth

/-- The only loader there is has no class yet. -/
theorem World.loader_initial (sources : List Source) (loader : LoaderId) :
    ((World.initial sources).loader loader).chain = [] ∧
      ((World.initial sources).loader loader).directory = {} := by
  rw [World.loader, World.initial, Array.getD_eq_getD_getElem?]
  obtain ⟨_ | index⟩ := loader
  · exact ⟨rfl, rfl⟩
  · exact ⟨rfl, rfl⟩

theorem World.findLoaded_initial (sources : List Source) (loader : LoaderId) (name : String) :
    (World.initial sources).findLoaded loader name = none := by
  rw [World.findLoaded, (World.loader_initial sources loader).2]
  rfl

theorem World.sound_initial (sources : List Source) : (World.initial sources).Sound where
  bootstrap := Nat.zero_lt_one
  root := (World.loader_initial sources .bootstrap).1
  top loader present := by
    have only : loader = .bootstrap := by
      obtain ⟨index⟩ := loader
      cases Nat.lt_one_iff.1 present
      rfl
    rw [only]
    exact List.mem_cons_self
  chains loader := .inl (World.loader_initial sources loader).1
  directories loader name id found := by
    rw [World.findLoaded_initial] at found
    cases found
  names loader name id found := by
    rw [World.findLoaded_initial] at found
    cases found
  titles id usable := absurd (World.present_of_isUsable usable) (Nat.not_lt_zero _)
  homes id present := absurd present (Nat.not_lt_zero _)
  heads id present := absurd present (Nat.not_lt_zero _)
  links id file linkage _ linked := by cases linked
  objects object membership := absurd membership (Array.not_mem_empty object)

theorem World.inOrder_initial (sources : List Source) : (World.initial sources).InOrder := by
  have absent (id : ClassId) : stateIn (World.initial sources).classes id = none := rfl
  constructor
  · exact World.sound_initial sources
  · intro id state
    have present := stateIn_eq_some.2 ⟨present_of_state (by simp [state]), state⟩
    rw [absent] at present
    cases present
  · intro moment earlier suffix
    exact absurd (List.IsSuffix.length_le suffix) (by simp [World.initial])
  · exact .refl _
  · intro id
    rw [absent]
    simp [World.initial, Journal.active]
  · rintro id ⟨moment, membership, _⟩
    cases membership

/-- A program leaves a world in order, in which no initialization is active. -/
theorem runWith_proceeds (callback : Callback Client) (depth : Nat) {α : Type}
    (program : Program Client α) (sources : List Source) (client : Client) :
    (World.initial sources).Proceeds
      (program.runWith callback depth ⟨World.initial sources, client⟩).2.world :=
  run_follows (runner_keeping callback depth)
    (program.abides_of_forall fun _ _ => World.keeping_bears) ⟨World.initial sources, client⟩
    (World.inOrder_initial sources)

/-- Without active initializations no class is being initialized. -/
theorem World.InOrder.quiet {world : World} (inOrder : world.InOrder)
    (idle : world.journal.active = []) (id : ClassId) :
    stateIn world.classes id ≠ some .beingInitialized := by
  intro busy
  rw [inOrder.active, idle] at busy
  cases busy

/-- What a program of a client leaves, started on a fresh machine. What lasts of a class is then as
it was wherever the class was met on the way. -/
def World.Reachable (world : World) : Prop :=
  ∃ (Client α : Type) (callback : Callback Client) (depth : Nat) (program : Program Client α)
    (sources : List Source) (client : Client),
    (program.runWith callback depth ⟨World.initial sources, client⟩).2.world = world

theorem World.Reachable.inOrder {world : World} (reachable : world.Reachable) : world.InOrder := by
  obtain ⟨Client, α, callback, depth, program, sources, client, ends⟩ := reachable
  rw [← ends]
  exact (runWith_proceeds callback depth program sources client).inOrder

/-- A class stays in a final state until the end. -/
theorem World.InOrder.final {world : World} (inOrder : world.InOrder) {earlier : Journal}
    (suffix : earlier <:+ world.journal) {state : ClassState} (final : state.isTerminal)
    (here : stateIn earlier.picture id = some state) :
    stateIn world.classes id = some state := by
  apply inOrder.added.stateIn
  have lawful := inOrder.lawful
  revert suffix lawful
  induction world.journal with
  | nil =>
      intro suffix _
      cases List.suffix_nil.1 suffix
      exact here
  | cons moment rest inductionHypothesis =>
      intro suffix lawful
      rcases List.suffix_cons_iff.1 suffix with same | within
      · subst same
        exact here
      · apply (lawful moment rest (List.suffix_refl _)).final final
        apply inductionHypothesis within
        intro other earlier suffix
        exact lawful other earlier (suffix.trans (List.suffix_cons _ _))

/-- The protocol of initialization. Whatever a client does, by programs and by running methods in
turn, everything in the journal is lawful: classes move along the protocol only and stay in final
states; those that are being initialized are those with active initializations, of which none is
left between two operations of the program; an initializer is called at most once, for its own class
and after that of the superclass. A class that is initialized next is initialized after that, or an
error comes out that is no fault of the protocol unless a method has answered with it. -/
theorem initialization_protocol {α : Type} (callback : Callback Client) (depth : Nat)
    (program : Program Client α) (sources : List Source) (client : Client) :
    let machine := (program.runWith callback depth ⟨World.initial sources, client⟩).2
    (∀ moment earlier, moment :: earlier <:+ machine.world.journal → moment.IsLawful earlier) ∧
      OnlyAdded machine.world.journal.picture machine.world.classes ∧
      (∀ earlier : Journal, earlier <:+ machine.world.journal → ∀ id state, state.isTerminal →
        stateIn earlier.picture id = some state →
          stateIn machine.world.classes id = some state) ∧
      machine.world.journal.active = [] ∧
      (∀ id, stateIn machine.world.classes id ≠ some .beingInitialized) ∧
      (∀ id later,
        runFrom machine (initializeClass (callback.runner depth) id) = (.ok (), later) →
          (later.world.type id).isArray ∨
            stateIn later.world.classes id = some .fullyInitialized) ∧
      ∀ id error later,
        runFrom machine (initializeClass (callback.runner depth) id) = (.error error, later) →
          error.IsProtocolFault → later.world.journal.Answered error := by
  intro machine
  have proceeds := runWith_proceeds callback depth program sources client
  have inOrder : machine.world.InOrder := proceeds.inOrder
  have idle : machine.world.journal.active = [] := proceeds.active
  have initializes (id : ClassId) :=
    initializeClass_initializes (runner_keeping callback depth).runs inOrder id
  refine ⟨inOrder.lawful, inOrder.added, ?_, idle, inOrder.quiet idle, ?_, ?_⟩
  · intro earlier suffix id state final here
    exact inOrder.final suffix final here
  · intro id later ends
    have initializes := initializes id
    rw [ends] at initializes
    rcases initializes.settled rfl id rfl with isArray | busy | settled
    · exact .inl isArray
    · have idleStill := initializes.proceeds.active.trans idle
      exact absurd busy (initializes.proceeds.inOrder.quiet idleStill id)
    · exact .inr settled
  · intro id error later ends fault
    have initializes := initializes id
    rw [ends] at initializes
    exact initializes.answered error rfl fault

end JavaMachine
