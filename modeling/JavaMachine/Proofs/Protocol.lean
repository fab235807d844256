import JavaMachine.Proofs.Journal
import JavaMachine.Proofs.Operation

/-!
# Worlds in order

Between two operations, which may be part of a static initializer, the journal of a world is
lawful so far and the classes that are being initialized are those with active initializations. An
operation leaves the active ones as they are, and a class whose initialization is active stays in
its state until that ends.
-/

namespace JavaMachine

/-- The state of a machine between two operations, which may be part of a static initializer. -/
structure World.InOrder (world : World) : Prop where
  sound : world.Sound
  atRest : world.AtRest
  lawful : ∀ moment earlier, moment :: earlier <:+ world.journal → moment.IsLawful earlier
  added : OnlyAdded world.journal.picture world.classes
  active : ∀ id, stateIn world.classes id = some .beingInitialized ↔ id ∈ world.journal.active
  called : ∀ id, world.journal.Called id →
    stateIn world.classes id ≠ none ∧ stateIn world.classes id ≠ some .linked

/-- The later world has the same classes and more of them, and a longer journal; no initializer has
been called of a class whose initialization was active. -/
structure World.Extends (world later : World) : Prop where
  size : world.classes.size ≤ later.classes.size
  lasting : ∀ id, id.index < world.classes.size →
    (later.type id).lasting = (world.type id).lasting
  journal : world.journal <:+ later.journal
  calls : ∀ id ∈ world.journal.active, later.journal.Called id → world.journal.Called id

/-- What an operation does: the later world is in order, and the same initializations are active. -/
structure World.Proceeds (world later : World) : Prop where
  inOrder : later.InOrder
  growth : world.Extends later
  active : later.journal.active = world.journal.active

namespace World

variable {world middle later changed : World} {id other : ClassId} {occurrence : Occurrence}

theorem Extends.refl (world : World) : world.Extends world :=
  ⟨Nat.le_refl _, fun _ _ => rfl, List.suffix_refl _, fun _ _ called => called⟩

theorem Extends.trans (first : world.Extends middle) (second : middle.Extends later)
    (active : ∀ id ∈ world.journal.active, id ∈ middle.journal.active) :
    world.Extends later where
  size := Nat.le_trans first.size second.size
  lasting id present :=
    (second.lasting id (Nat.lt_of_lt_of_le present first.size)).trans (first.lasting id present)
  journal := first.journal.trans second.journal
  calls id membership called :=
    first.calls id membership (second.calls id (active id membership) called)

theorem Proceeds.refl (inOrder : world.InOrder) : world.Proceeds world :=
  ⟨inOrder, .refl world, rfl⟩

theorem Proceeds.trans (first : world.Proceeds middle) (second : middle.Proceeds later) :
    world.Proceeds later where
  inOrder := second.inOrder
  growth := first.growth.trans second.growth fun _ membership => first.active ▸ membership
  active := second.active.trans first.active

/-- Work between entries into the journal only adds classes, none of which is initialized yet. -/
theorem Lasts.inOrder (lasts : world.Lasts later) (inOrder : world.InOrder) :
    later.InOrder := by
  have grown := lasts.grows.onlyAdded
  have journal := lasts.grows.journal
  constructor
  case sound => exact lasts.sound
  case atRest => exact lasts.grows.atRest inOrder.atRest
  case lawful =>
    rw [journal]
    exact inOrder.lawful
  case added =>
    rw [journal]
    exact inOrder.added.trans grown
  case active =>
    intro id
    rw [journal, ← inOrder.active id]
    constructor
    · intro here
      rcases grown.before_or_fresh here with before | ⟨type, fresh, state⟩
      · exact before
      · exact absurd state fresh.not_beingInitialized
    · exact grown.stateIn
  case called =>
    intro id called
    rw [journal] at called
    obtain ⟨there, begun⟩ := inOrder.called id called
    obtain ⟨state, here⟩ := Option.ne_none_iff_exists'.1 there
    rw [grown.stateIn here, ← here]
    exact ⟨there, begun⟩

theorem Lasts.proceeds (inOrder : world.InOrder) (lasts : world.Lasts later) :
    world.Proceeds later where
  inOrder := lasts.inOrder inOrder
  growth := by
    have journal := lasts.grows.journal
    refine ⟨lasts.grows.size, lasts.grows.lasting, ?_, ?_⟩
    · exact journal ▸ List.suffix_refl _
    · rw [journal]
      exact fun _ _ called => called
  active := by rw [lasts.grows.journal]

/-- What operations do to a world that is in order. -/
def Keeping (world later : World) : Prop := world.InOrder → world.Proceeds later

instance : Course Keeping where
  trans first second inOrder := (first inOrder).trans (second (first inOrder).inOrder)
  develop develops inOrder :=
    (develops inOrder.sound inOrder.atRest).toLasts.proceeds inOrder

theorem keeping_bears : Course.Bears Keeping :=
  fun _ _ lasts inOrder => (lasts inOrder.sound inOrder.atRest).proceeds inOrder

/-! ### Entries -/

/-- The world is as before but for the state of one class. -/
structure Restates (id : ClassId) (world changed : World) : Prop where
  size : changed.classes.size = world.classes.size
  lasting : ∀ other, (changed.type other).lasting = (world.type other).lasting
  others : ∀ other, other ≠ id → changed.classes[other.index]? = world.classes[other.index]?
  loaders : changed.loaders = world.loaders
  objects : changed.objects = world.objects
  journal : changed.journal = world.journal

theorem Restates.refl (id : ClassId) (world : World) : Restates id world world :=
  ⟨rfl, fun _ => rfl, fun _ _ => rfl, rfl, rfl, rfl⟩

theorem Restates.withState (world : World) (id : ClassId) (state : Class → ClassState) :
    Restates id world (world.withState id state) where
  size := size_withState world id state
  lasting other := lasting_withState world id other state
  others other distinct := by
    have indices : id.index ≠ other.index := by
      intro same
      exact distinct (by cases id; cases other; cases same; rfl)
    simp [World.withState, modifyType, Array.getElem?_modify, indices]
  loaders := rfl
  objects := rfl
  journal := rfl

theorem Restates.stateIn (restates : Restates id world changed) (distinct : other ≠ id) :
    stateIn changed.classes other = stateIn world.classes other := by
  rw [JavaMachine.stateIn, restates.others other distinct, JavaMachine.stateIn]

theorem Restates.sound (restates : Restates id world changed) (sound : world.Sound) :
    changed.Sound := by
  refine sound.of_lasting restates.size restates.lasting (.of_eq restates.loaders) ?_ fun shaped =>
    KeepsUsable.shaped (fun id _ => restates.lasting id) shaped restates.objects
  intro loader name found known
  exact .inl (findLoaded_eq_of_loaders restates.loaders loader name ▸ known)

theorem Restates.atRest (restates : Restates id world changed)
    (moves : occurrence.Moves (JavaMachine.stateIn world.classes id)
      (JavaMachine.stateIn changed.classes id)) (atRest : world.AtRest) : changed.AtRest := by
  have linked {one : ClassId} : JavaMachine.stateIn world.classes one ≠ some .allocated := by
    rw [Ne, stateIn_eq_some_of_ne (by simp)]
    exact atRest one
  intro other state
  have here : JavaMachine.stateIn changed.classes other = some .allocated :=
    (stateIn_eq_some_of_ne (by simp)).2 state
  by_cases same : other = id
  · subst same
    exact moves.not_allocated linked here
  · rw [restates.stateIn same] at here
    exact linked here

/-- A class that has left the state in which it waits does not come back to it. -/
theorem Restates.begun (restates : Restates id world changed)
    (moves : occurrence.Moves (JavaMachine.stateIn world.classes id)
      (JavaMachine.stateIn changed.classes id))
    (there : JavaMachine.stateIn world.classes other ≠ none)
    (begun : JavaMachine.stateIn world.classes other ≠ some .linked) :
    JavaMachine.stateIn changed.classes other ≠ none ∧
      JavaMachine.stateIn changed.classes other ≠ some .linked := by
  by_cases same : other = id
  · subst same
    exact ⟨moves.present there, moves.not_linked begun⟩
  · rw [restates.stateIn same]
    exact ⟨there, begun⟩

/-- An entry keeps a world in order if it is lawful. -/
theorem InOrder.note (inOrder : world.InOrder) (restates : Restates id world changed)
    (moves : occurrence.Moves (stateIn world.classes id) (stateIn changed.classes id))
    (active : ∀ other, stateIn changed.classes other = some .beingInitialized ↔
      other ∈ Journal.active (⟨id, occurrence, changed.classes⟩ :: world.journal))
    (call : ∀ initializer, occurrence = .called initializer →
      IsLawfulCall changed.classes world.journal id initializer)
    (fault : ∀ error, occurrence = .failed error → error.IsProtocolFault →
      world.journal.Answered error) : (changed.note id occurrence).InOrder := by
  have lawful : Moment.IsLawful ⟨id, occurrence, changed.classes⟩ world.journal :=
    ⟨⟨world.classes, inOrder.added, moves, restates.others⟩, active, call, fault⟩
  have journal : (changed.note id occurrence).journal =
      ⟨id, occurrence, changed.classes⟩ :: world.journal := by
    rw [World.note, restates.journal]
  constructor
  case sound =>
    exact (restates.sound inOrder.sound).of_lasting rfl (fun _ => rfl) (.of_eq rfl)
      (fun _ _ _ => .inl) fun shaped => shaped
  case atRest => exact restates.atRest moves inOrder.atRest
  case lawful =>
    intro moment earlier suffix
    rw [journal, List.suffix_cons_iff] at suffix
    rcases suffix with new | old
    · cases new
      exact lawful
    · exact inOrder.lawful moment earlier old
  case added =>
    rw [journal]
    exact .refl _
  case active =>
    rw [journal]
    exact active
  case called =>
    intro other called
    rw [journal] at called
    obtain ⟨moment, membership, type, initializer, calling⟩ := called
    rcases List.mem_cons.1 membership with new | old
    · subst new
      cases type
      have busy := (call initializer calling).busy
      rw [World.note, busy]
      simp
    · obtain ⟨there, begun⟩ := inOrder.called other ⟨moment, old, type, initializer, calling⟩
      exact restates.begun moves there begun

theorem Extends.note {before : World} (growth : before.Extends world)
    (restates : Restates id world changed) (idle : id ∉ before.journal.active) :
    before.Extends (changed.note id occurrence) where
  size := Nat.le_trans growth.size (Nat.le_of_eq restates.size.symm)
  lasting other present := (restates.lasting other).trans (growth.lasting other present)
  journal := by
    rw [World.note, restates.journal]
    exact growth.journal.trans (List.suffix_cons _ _)
  calls other membership called := by
    rw [World.note, restates.journal] at called
    obtain ⟨moment, among, type, calling⟩ := called
    rcases List.mem_cons.1 among with new | old
    · subst new
      cases type
      exact absurd membership idle
    · exact growth.calls other membership ⟨moment, old, type, calling⟩

theorem stateIn_withState (state : Class → ClassState) (present : id.index < world.classes.size) :
    JavaMachine.stateIn (world.withState id state).classes id = some (state (world.type id)) := by
  rw [stateIn_eq_some, size_withState, type_withState state present]
  exact ⟨present, rfl⟩

/-! ### The course of one initialization -/

/-- Since the world was `before`, the initialization of a class has begun and has not ended. -/
structure Within (id : ClassId) (before world : World) : Prop where
  inOrder : world.InOrder
  growth : before.Extends world
  active : world.journal.active = id :: before.journal.active
  idle : id ∉ before.journal.active

theorem InOrder.begin (inOrder : world.InOrder) (linked : (world.type id).state = .linked) :
    Within id world ((world.withState id fun _ => .beingInitialized).note id .begun) := by
  have present : id.index < world.classes.size := present_of_state (by simp [linked])
  have here : JavaMachine.stateIn world.classes id = some .linked :=
    stateIn_eq_some.2 ⟨present, linked⟩
  have restates := Restates.withState world id fun _ => .beingInitialized
  have now := stateIn_withState (fun _ => .beingInitialized) present
  have idle : id ∉ world.journal.active := by
    rw [← inOrder.active, here]
    simp
  refine ⟨inOrder.note restates ?_ ?_ ?_ ?_, (Extends.refl world).note restates idle, rfl, idle⟩
  · rw [here, now]
    exact .begun
  · intro other
    by_cases same : other = id
    · simp [same, now, Journal.active]
    · rw [restates.stateIn same, inOrder.active other]
      simp [same, Journal.active]
  · exact fun _ same => by cases same
  · exact fun _ same => by cases same

namespace Within

variable {before : World}

theorem stateIn (within : Within id before world) :
    JavaMachine.stateIn world.classes id = some .beingInitialized := by
  rw [within.inOrder.active, within.active]
  exact List.mem_cons_self

theorem proceeds (within : Within id before world) (proceeds : world.Proceeds later) :
    Within id before later where
  inOrder := proceeds.inOrder
  growth := by
    apply within.growth.trans proceeds.growth
    intro other membership
    rw [within.active]
    exact List.mem_cons_of_mem _ membership
  active := proceeds.active.trans within.active
  idle := within.idle

/-- The class's static initializer is called. -/
theorem call (within : Within id before world) {initializer : Method}
    (lawful : IsLawfulCall world.classes world.journal id initializer) :
    Within id before (world.note id (.called initializer)) where
  inOrder := by
    apply within.inOrder.note (.refl id world) (.called initializer _) within.inOrder.active
    · intro other same
      cases same
      exact lawful
    · exact fun _ same => by cases same
  growth := within.growth.note (.refl id world) within.idle
  active := within.active
  idle := within.idle

theorem answer (within : Within id before world) (outcome : Except Error (Option Value)) :
    Within id before (world.note id (.answered outcome)) where
  inOrder := by
    apply within.inOrder.note (.refl id world) (.answered outcome _) within.inOrder.active
    · exact fun _ same => by cases same
    · exact fun _ same => by cases same
  growth := within.growth.note (.refl id world) within.idle
  active := within.active
  idle := within.idle

/-- The initialization ends, and with it the class is no longer being initialized. -/
theorem close (within : Within id before world) (restates : Restates id world changed)
    (moves : occurrence.Moves (some .beingInitialized) (JavaMachine.stateIn changed.classes id))
    (closed : JavaMachine.stateIn changed.classes id ≠ some .beingInitialized)
    (ends : Journal.active (⟨id, occurrence, changed.classes⟩ :: world.journal) =
      world.journal.active.erase id)
    (call : ∀ initializer, occurrence ≠ .called initializer)
    (fault : ∀ error, occurrence = .failed error → error.IsProtocolFault →
      world.journal.Answered error) : before.Proceeds (changed.note id occurrence) := by
  have active : Journal.active (⟨id, occurrence, changed.classes⟩ :: world.journal) =
      before.journal.active := by
    rw [ends, within.active, List.erase_cons_head]
  constructor
  · apply within.inOrder.note restates
    · rw [within.stateIn]
      exact moves
    · intro other
      rw [active]
      by_cases same : other = id
      · subst same
        exact ⟨fun here => absurd here closed, fun among => absurd among within.idle⟩
      · rw [restates.stateIn same, within.inOrder.active, within.active]
        simp [same]
    · exact fun initializer same => absurd same (call initializer)
    · exact fault
  · exact within.growth.note restates within.idle
  · rw [World.note, restates.journal]
    exact active

theorem present (within : Within id before world) : id.index < world.classes.size :=
  (stateIn_eq_some.1 within.stateIn).1

theorem complete (within : Within id before world) :
    before.Proceeds ((world.withState id fun _ => .fullyInitialized).note id .completed) := by
  have now := stateIn_withState (fun _ => .fullyInitialized) within.present
  refine within.close (.withState world id _) ?_ ?_ rfl (fun _ same => ?_) fun _ same => ?_
  · rw [now]
    exact .completed
  · simp [now]
  · cases same
  · cases same

theorem fail (within : Within id before world) {error : Error}
    (fault : error.IsProtocolFault → world.journal.Answered error) :
    before.Proceeds ((world.markFailed id).note id (.failed error)) := by
  have now := stateIn_withState
    (fun type => if type.state.isTerminal then type.state else .initializationError) within.present
  have open_ := (stateIn_eq_some.1 within.stateIn).2
  rw [open_] at now
  rw [markFailed_eq]
  refine within.close (.withState world id _) ?_ ?_ rfl (fun _ same => ?_) fun _ same => ?_
  · rw [now]
    exact .failed error
  · rw [now]
    simp [ClassState.isTerminal]
  · cases same
  · cases same
    exact fault

end Within

/-- A request is refused for a class that has failed. -/
theorem InOrder.refuse (inOrder : world.InOrder)
    (failed : (world.type id).state = .initializationError) {error : Error}
    (harmless : ¬ error.IsProtocolFault) : world.Proceeds (world.note id (.failed error)) := by
  have idle : id ∉ world.journal.active := by
    rw [← inOrder.active, stateIn_eq_some_of_ne (by simp), failed]
    simp
  have active : ∀ classes, Journal.active (⟨id, .failed error, classes⟩ :: world.journal) =
      world.journal.active := fun _ => List.erase_of_not_mem idle
  refine ⟨inOrder.note (.refl id world) ?_ ?_ ?_ ?_,
    (Extends.refl world).note (.refl id world) idle, active _⟩
  · cases here : JavaMachine.stateIn world.classes id with
    | none => exact .absent error
    | some state =>
        rw [stateIn_eq_some, failed] at here
        cases here.2
        exact .refused error
  · intro other
    rw [active, inOrder.active]
  · exact fun _ same => by cases same
  · intro other same fault
    cases same
    exact absurd fault harmless

end World
end JavaMachine
