import JavaMachine.Proofs.Initialization

/-!
# Transitions of classes

Initializing a class enters what happens into the journal, moves the class from one state to the
next and runs its initializer. A relation on worlds that holds along the first two therefore holds
along initializations as soon as it holds along the methods that are run.
-/

namespace JavaMachine

/-- A class is left in its state or moves on to the next one. -/
def World.Moves (world : World) (id : ClassId) (state : Class → ClassState) : Prop :=
  state (world.type id) = (world.type id).state ∨
    (world.type id).state.canAdvanceTo (state (world.type id))

theorem World.moves_markFailed (world : World) (id : ClassId) : world.Moves id fun type =>
    if type.state.isTerminal then type.state else .initializationError := by
  by_cases final : (world.type id).state.isTerminal
  · exact .inl (if_pos final)
  · right
    dsimp only
    rw [if_neg final, ClassState.canAdvanceTo]
    simpa using final

/-- A trail that also leads along entries into the journal. -/
class Trail.Notes {Client : Type} (relation : Machine Client → Machine Client → Prop) :
    Prop extends Trail relation where
  note : ∀ (machine : Machine Client) id occurrence,
    relation machine { machine with world := machine.world.note id occurrence }

/-- A trail that also leads along entries into the journal and where classes move on. -/
class Trail.Transits {Client : Type} (relation : Machine Client → Machine Client → Prop) :
    Prop extends Trail.Notes relation where
  move : ∀ (machine : Machine Client) id (state : Class → ClassState),
    machine.world.Moves id state →
      relation machine { machine with world := machine.world.withState id state }

/-- A course that also holds along entries into the journal and where classes move on. -/
class Course.Transits (relation : World → World → Prop) : Prop extends Course relation where
  note : ∀ world id occurrence, relation world (world.note id occurrence)
  move : ∀ (world : World) id (state : Class → ClassState), world.Moves id state →
    relation world (world.withState id state)

instance {Client : Type} {relation : World → World → Prop} [Course.Transits relation] :
    Trail.Transits (Along relation : Machine Client → Machine Client → Prop) where
  note machine id occurrence := Course.Transits.note machine.world id occurrence
  move machine id state moves := Course.Transits.move machine.world id state moves

/-! ### How an initialization goes -/

section Courses

variable {Client : Type} {run : Runner Client} {machine middle : Machine Client} {id : ClassId}
variable {superclasses : MachineM Client Unit}

theorem runFrom_advance_refused {world : World} {next : ClassState}
    (refused : ¬ (world.type id).state.canAdvanceTo next) :
    runFrom world (World.advance id next) = (.error (.internal (.illegalTransition
      (world.type id).name (world.type id).state next)), world) := by
  rw [World.advance, runFrom_bind_ok runFrom_get]
  dsimp only
  rw [if_neg refused]
  rfl

/-- The initialization of a class has begun. -/
def Machine.beginning (machine : Machine Client) (id : ClassId) : Machine Client :=
  { machine with world := (machine.world.withState id fun _ => .beingInitialized).note id .begun }

/-- The initialization of a class has failed. -/
def Machine.failing (machine : Machine Client) (id : ClassId) : Machine Client :=
  { machine with world := machine.world.markFailed id }

/-- The initialization of a class is completed. -/
def Machine.completing (machine : Machine Client) (id : ClassId) : Machine Client :=
  { machine with
    world := (machine.world.withState id fun _ => .fullyInitialized).note id .completed }

/-- A class that cannot begin is left as it is. -/
theorem initializeLinked_refused (run : Runner Client) (superclasses : MachineM Client Unit)
    (refused : ¬ (machine.world.type id).state.canAdvanceTo .beingInitialized) :
    ∃ error, runFrom machine (initializeLinked run id superclasses) = (.error error, machine) :=
  ⟨_, runFrom_bind_error (runFrom_onWorld (runFrom_advance_refused refused))⟩

variable (may : (machine.world.type id).state.canAdvanceTo .beingInitialized)
include may

theorem initializeLinked_eq : runFrom machine (initializeLinked run id superclasses) =
    runFrom (machine.beginning id) (do
      tryCatch (do superclasses; runInitializer run id) (fun error => do
        MachineM.onWorld (modify fun world => world.markFailed id)
        throw (initializerError error))
      MachineM.onWorld (World.advance id .fullyInitialized)
      note id .completed) := by
  rw [initializeLinked, runFrom_bind_ok (runFrom_onWorld (World.runFrom_advance may)),
    runFrom_bind_ok (runFrom_note _ _ _)]
  rfl

/-- The class fails with its superclass, or by its own initializer. -/
theorem initializeLinked_error {error : Error}
    (attempted : runFrom (machine.beginning id) (do superclasses; runInitializer run id) =
      (.error error, middle)) :
    runFrom machine (initializeLinked run id superclasses) =
      (.error (initializerError error), middle.failing id) := by
  rw [initializeLinked_eq may]
  apply runFrom_bind_error
  rw [runFrom_tryCatch_error attempted, runFrom_bind_ok (runFrom_onWorld runFrom_modify)]
  rfl

variable (attempted : runFrom (machine.beginning id) (do superclasses; runInitializer run id) =
  (.ok (), middle))
include attempted

theorem initializeLinked_ok
    (mayToo : (middle.world.type id).state.canAdvanceTo .fullyInitialized) :
    runFrom machine (initializeLinked run id superclasses) = (.ok (), middle.completing id) := by
  rw [initializeLinked_eq may, runFrom_bind_ok (runFrom_tryCatch_ok attempted),
    runFrom_bind_ok (runFrom_onWorld (World.runFrom_advance mayToo))]
  rfl

theorem initializeLinked_stuck
    (refused : ¬ (middle.world.type id).state.canAdvanceTo .fullyInitialized) :
    ∃ error, runFrom machine (initializeLinked run id superclasses) = (.error error, middle) := by
  rw [initializeLinked_eq may, runFrom_bind_ok (runFrom_tryCatch_ok attempted)]
  exact ⟨_, runFrom_bind_error (runFrom_onWorld (runFrom_advance_refused refused))⟩

end Courses

section Initializing

variable {α Client : Type} {relation : Machine Client → Machine Client → Prop}

theorem Follows.tryCatch {σ : Type} {view : σ → Machine Client} [Trail relation]
    {action : ExceptT Error (StateM σ) α} {handler : Error → ExceptT Error (StateM σ) α}
    (tried : Follows view relation action)
    (handled : ∀ error, Follows view relation (handler error)) :
    Follows view relation (tryCatch action handler) := by
  constructor
  intro start
  have leads := tried.leads start
  rcases ends : runFrom start action with ⟨error | result, middle⟩
  all_goals rw [ends] at leads
  · rw [runFrom_tryCatch_error ends]
    exact Trail.trans leads ((handled error).leads middle)
  · rw [runFrom_tryCatch_ok ends]
    exact leads

section Notes

variable [Trail.Notes relation]

theorem note_follows (id : ClassId) (occurrence : Occurrence) :
    Follows Machine.self relation (note id occurrence : MachineM Client Unit) :=
  ⟨fun machine => Trail.Notes.note machine id occurrence⟩

theorem runInitializer_follows {run : Runner Client}
    (follows : ∀ method arguments, Follows Machine.self relation (run method arguments))
    (id : ClassId) : Follows Machine.self relation (runInitializer run id) := by
  apply Follows.bind MachineM.world_follows
  intro world
  dsimp only
  split
  next method _ =>
    split
    · apply Follows.bind (note_follows id _)
      intro _
      have outcome : Follows Machine.self relation (MachineM.outcome (run method [])) :=
        ⟨(follows method []).leads⟩
      apply Follows.bind outcome
      intro outcome
      apply Follows.bind (note_follows id _)
      intro _
      exact MachineM.discard_follows (Follows.ofExcept outcome)
    · exact Follows.pure _
  · exact Follows.pure _

end Notes

variable [Trail.Transits relation]

theorem advance_follows (id : ClassId) (next : ClassState) :
    Follows Machine.self relation
      (MachineM.onWorld (World.advance id next) : MachineM Client Unit) := by
  constructor
  intro machine
  by_cases may : (machine.world.type id).state.canAdvanceTo next
  · rw [runFrom_onWorld (World.runFrom_advance may)]
    exact Trail.Transits.move machine id _ (.inr may)
  · rw [runFrom_onWorld (runFrom_advance_refused may)]
    exact Trail.refl _

theorem markFailed_follows (id : ClassId) :
    Follows Machine.self relation
      (MachineM.onWorld (modify fun world => world.markFailed id) : MachineM Client Unit) := by
  constructor
  intro machine
  change relation machine { machine with world := machine.world.markFailed id }
  rw [World.markFailed_eq]
  exact Trail.Transits.move machine id _ (World.moves_markFailed machine.world id)

variable {run : Runner Client}
variable (follows : ∀ method arguments, Follows Machine.self relation (run method arguments))
include follows

theorem initializeFrom_follows (id : ClassId) {superclasses : MachineM Client Unit}
    (above : Follows Machine.self relation superclasses) :
    Follows Machine.self relation (initializeFrom run id superclasses) := by
  apply Follows.bind MachineM.world_follows
  intro world
  dsimp only
  split
  · exact Follows.pure _
  · split
    · exact Follows.pure _
    · exact Follows.pure _
    · exact Follows.throw _
    · exact Follows.throw _
    · apply Follows.bind (advance_follows id _)
      intro _
      apply Follows.bind (note_follows id _)
      intro _
      refine Follows.bind (Follows.tryCatch ?_ fun error => ?_) fun _ => ?_
      · exact Follows.bind above fun _ => runInitializer_follows follows id
      · exact Follows.bind (markFailed_follows id) fun _ => Follows.throw _
      · exact Follows.bind (advance_follows id _) fun _ => note_follows id _

theorem initializeAlong_follows (ids : List ClassId) :
    Follows Machine.self relation (initializeAlong run ids) := by
  induction ids with
  | nil => exact Follows.pure _
  | cons id superclasses inductionHypothesis =>
      apply Follows.tryCatch (initializeFrom_follows follows id inductionHypothesis)
      intro error
      exact Follows.bind (note_follows id _) fun _ => Follows.throw _

/-- Initializing a class follows what methods follow. -/
theorem initializing_follows (id : ClassId) :
    Follows Machine.self relation (initializeClass run id) :=
  Follows.bind MachineM.world_follows fun _ => initializeAlong_follows follows _

end Initializing
end JavaMachine
