import JavaMachine.Proofs.Attachment

/-!
# Lawful journals

What the journal of a machine tells of initializations: which of them are active, whose static
initializers have been called, and how the states of all classes move from one entry to the next.
An entry is lawful if only the class it is about moves, along the protocol, if exactly the classes
with active initializations are being initialized, if a class's own initializer is called for the
first time and after those of its superclass, and if no fault of the protocol comes up that a method
has not answered.
-/

namespace JavaMachine

/-- The state of a class in a picture of all classes; none if there is no such class. -/
def stateIn (classes : Array Class) (id : ClassId) : Option ClassState :=
  classes[id.index]?.map Class.state

namespace Journal

/-- The classes whose initialization has begun and not ended, the latest first. -/
def active : Journal → List ClassId
  | [] => []
  | moment :: earlier =>
      match moment.occurrence with
      | .begun => moment.type :: active earlier
      | .called _ | .answered _ => active earlier
      | .completed | .failed _ => (active earlier).erase moment.type

/-- The classes as they were at the latest moment. -/
def picture : Journal → Array Class
  | [] => #[]
  | moment :: _ => moment.classes

/-- The static initializer of a class has been called. -/
def Called (journal : Journal) (id : ClassId) : Prop :=
  ∃ moment ∈ journal, moment.type = id ∧ ∃ initializer, moment.occurrence = .called initializer

/-- A method has answered with an error. -/
def Answered (journal : Journal) (error : Error) : Prop :=
  ∃ moment ∈ journal, moment.occurrence = .answered (.error error)

end Journal

/-- The error says that the protocol of initialization was broken: that a class changed its state
out of turn, or was initialized before it was linked. -/
def Error.IsProtocolFault : Error → Prop
  | .internal (.illegalTransition _ _ _) | .internal (.initializedUnlinked _) => True
  | _ => False

/-- How the state of a class may move when something happens to it. A request for a class that has
failed, or that is not there, is refused. -/
inductive Occurrence.Moves : Occurrence → Option ClassState → Option ClassState → Prop where
  | begun : Moves .begun (some .linked) (some .beingInitialized)
  | called (initializer state) : Moves (.called initializer) state state
  | answered (outcome state) : Moves (.answered outcome) state state
  | completed : Moves .completed (some .beingInitialized) (some .fullyInitialized)
  | failed (error) : Moves (.failed error) (some .beingInitialized) (some .initializationError)
  | refused (error) : Moves (.failed error) (some .initializationError) (some .initializationError)
  | absent (error) : Moves (.failed error) none none

/-- Classes were added at most: those that were there last and are in the states they were in. -/
structure OnlyAdded (before after : Array Class) : Prop where
  kept : ∀ (id : ClassId) (type : Class), before[id.index]? = some type →
    ∃ now, after[id.index]? = some now ∧ now.lasting = type.lasting ∧ now.state = type.state
  fresh : ∀ (id : ClassId) (type : Class), before.size ≤ id.index →
    after[id.index]? = some type → type.IsFresh

/-- The method is the static initializer that the file of the class itself declares. -/
structure IsOwnInitializer (classes : Array Class) (id : ClassId) (initializer : Method) :
    Prop where
  name : initializer.name = WellKnown.staticInitializer
  descriptor : initializer.descriptor = WellKnown.noArguments
  isStatic : initializer.isStatic
  owner : initializer.owner = id
  declared : ∃ type file, classes[id.index]? = some type ∧
    type.file? = some file ∧
    ∃ member ∈ file.methods, Method.ofMember file id type.name member = .ok initializer

/-- The direct superclass of a class, if it has one, is being initialized or is initialized. -/
def SuperclassSettled (classes : Array Class) (id : ClassId) : Prop :=
  ∀ type superclass, classes[id.index]? = some type → type.superclass? = some superclass →
    stateIn classes superclass = some .beingInitialized ∨
      stateIn classes superclass = some .fullyInitialized

/-- A static initializer is called in its turn: during the initialization of its class, after that
of the superclass, and for the first time. -/
structure IsLawfulCall (classes : Array Class) (earlier : Journal) (id : ClassId)
    (initializer : Method) : Prop where
  busy : stateIn classes id = some .beingInitialized
  own : IsOwnInitializer classes id initializer
  superclass : SuperclassSettled classes id
  first : ¬ earlier.Called id

/-- What is entered into a journal after the earlier entries is as the protocol wants it. -/
structure Moment.IsLawful (moment : Moment) (earlier : Journal) : Prop where
  states : ∃ middle, OnlyAdded earlier.picture middle ∧
    moment.occurrence.Moves (stateIn middle moment.type) (stateIn moment.classes moment.type) ∧
    ∀ other, other ≠ moment.type → moment.classes[other.index]? = middle[other.index]?
  active : ∀ id, stateIn moment.classes id = some .beingInitialized ↔
    id ∈ Journal.active (moment :: earlier)
  call : ∀ initializer, moment.occurrence = .called initializer →
    IsLawfulCall moment.classes earlier moment.type initializer
  fault : ∀ error, moment.occurrence = .failed error → error.IsProtocolFault →
    earlier.Answered error

/-- No class comes to be unlinked. -/
theorem Occurrence.Moves.not_allocated {occurrence : Occurrence} {before after : Option ClassState}
    (moves : occurrence.Moves before after) (linked : before ≠ some .allocated) :
    after ≠ some .allocated := by
  cases moves with
  | begun | completed | failed | refused | absent => simp
  | called | answered => exact linked

/-- No class comes to wait for its initialization again. -/
theorem Occurrence.Moves.not_linked {occurrence : Occurrence} {before after : Option ClassState}
    (moves : occurrence.Moves before after) (begun : before ≠ some .linked) :
    after ≠ some .linked := by
  cases moves with
  | begun | completed | failed | refused | absent => simp
  | called | answered => exact begun

/-- A class stays in a final state. -/
theorem Occurrence.Moves.final {occurrence : Occurrence} {before after : Option ClassState}
    (moves : occurrence.Moves before after) {state : ClassState} (final : state.isTerminal)
    (here : before = some state) : after = some state := by
  cases moves with
  | begun | completed | failed =>
      cases here
      cases final
  | called | answered | refused | absent => exact here

/-- A class that is there stays there. -/
theorem Occurrence.Moves.present {occurrence : Occurrence} {before after : Option ClassState}
    (moves : occurrence.Moves before after) (there : before ≠ none) : after ≠ none := by
  cases moves with
  | begun | completed | failed | refused => simp
  | called | answered | absent => exact there

/-! ### Pictures of classes -/

variable {world later : World} {id other : ClassId} {state : ClassState}

theorem stateIn_eq_some :
    stateIn world.classes id = some state ↔
      id.index < world.classes.size ∧ (world.type id).state = state := by
  rcases Nat.lt_or_ge id.index world.classes.size with present | absent
  · simp [stateIn, World.type, Array.getD_eq_getD_getElem?, present]
  · simp [stateIn, Nat.not_lt.2 absent]

/-- Only a class that is there is in a state other than that of failure. -/
theorem stateIn_eq_some_of_ne (open_ : state ≠ .initializationError) :
    stateIn world.classes id = some state ↔ (world.type id).state = state := by
  rw [stateIn_eq_some]
  constructor
  · exact fun both => both.2
  · intro here
    exact ⟨World.present_of_state (by rw [here]; exact open_), here⟩

namespace OnlyAdded

variable {before middle after : Array Class}

theorem refl (classes : Array Class) : OnlyAdded classes classes where
  kept _ type found := ⟨type, found, rfl, rfl⟩
  fresh id type absent found := by
    rw [Array.getElem?_eq_none absent] at found
    cases found

theorem trans (first : OnlyAdded before middle) (second : OnlyAdded middle after) :
    OnlyAdded before after where
  kept id type found := by
    obtain ⟨between, foundBetween, lasting, state⟩ := first.kept id type found
    obtain ⟨now, foundNow, lastingNow, stateNow⟩ := second.kept id between foundBetween
    exact ⟨now, foundNow, lastingNow.trans lasting, stateNow.trans state⟩
  fresh id type absent found := by
    cases between : middle[id.index]? with
    | none => exact second.fresh id type (Array.getElem?_eq_none_iff.1 between) found
    | some own =>
        obtain ⟨now, foundNow, lasting, state⟩ := second.kept id own between
        rw [found] at foundNow
        cases foundNow
        exact (first.fresh id own absent between).of_same lasting state

theorem stateIn (added : OnlyAdded before after) {id : ClassId} {state : ClassState}
    (here : stateIn before id = some state) : JavaMachine.stateIn after id = some state := by
  obtain ⟨type, found, same⟩ := Option.map_eq_some_iff.1 here
  obtain ⟨now, foundNow, _, stateNow⟩ := added.kept id type found
  rw [JavaMachine.stateIn, foundNow, Option.map_some, stateNow, same]

/-- A class in a picture has been there before in the same state, or has been added since. -/
theorem before_or_fresh (added : OnlyAdded before after) {id : ClassId} {state : ClassState}
    (here : JavaMachine.stateIn after id = some state) :
    JavaMachine.stateIn before id = some state ∨
      ∃ type : Class, type.IsFresh ∧ type.state = state := by
  obtain ⟨now, foundNow, same⟩ := Option.map_eq_some_iff.1 here
  cases found : before[id.index]? with
  | none => exact .inr ⟨now, added.fresh id now (Array.getElem?_eq_none_iff.1 found) foundNow, same⟩
  | some type =>
      obtain ⟨other, foundOther, _, state⟩ := added.kept id type found
      rw [foundNow] at foundOther
      cases foundOther
      exact .inl (by rw [JavaMachine.stateIn, found, Option.map_some, ← state, same])

end OnlyAdded

/-- Along a lawful journal a class stays in a final state. -/
theorem Moment.IsLawful.final {moment : Moment} {earlier : Journal}
    (lawful : moment.IsLawful earlier) (final : state.isTerminal)
    (here : stateIn earlier.picture id = some state) : stateIn moment.classes id = some state := by
  obtain ⟨middle, added, moves, others⟩ := lawful.states
  have between := added.stateIn here
  by_cases same : id = moment.type
  · subst same
    exact moves.final final between
  · rw [stateIn, others id same]
    exact between

/-- Growth only adds classes. -/
theorem World.Grows.onlyAdded (grows : world.Grows later) :
    OnlyAdded world.classes later.classes where
  kept id type found := by
    obtain ⟨present, _⟩ := Array.getElem?_eq_some_iff.1 found
    have presentNow := Nat.lt_of_lt_of_le present grows.size
    have here := type_eq_of_getElem? found
    refine ⟨later.type id, ?_, ?_, ?_⟩
    · simp [World.type, Array.getD_eq_getD_getElem?, presentNow]
    · rw [grows.lasting id present, here]
    · rw [grows.state id present, here]
  fresh id type absent found := by
    have fresh := grows.fresh id absent
    rw [type_eq_of_getElem? found] at fresh
    exact fresh

end JavaMachine
