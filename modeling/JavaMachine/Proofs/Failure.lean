import JavaMachine.Proofs.Order

/-!
# Failed initializations

A class is initialized by a recursion along its superclasses. Where that fails there is a highest
class that fails: it has failed before, or its initializer raises an error now. All classes below
fail with it, without their own initializers being called, and the error comes out as it was or, if
it was an exception, wrapped once. From then on each of these classes is refused.
-/

namespace JavaMachine

variable {Client : Type} {run : Runner Client} {machine middle later last : Machine Client}
variable {id failed other : ClassId} {ids others superclasses above below : List ClassId}
variable {error : Error}

/-! ### The recursion along superclasses -/

/-- The calls to which initializing along a list leads by its recursion: where a class is linked,
its superclasses are initialized once its own initialization has begun. -/
inductive Ascends : List ClassId → Machine Client → List ClassId → Machine Client → Prop where
  | refl (ids : List ClassId) (machine : Machine Client) : Ascends ids machine ids machine
  | above {id : ClassId} {superclasses ids : List ClassId} {machine last : Machine Client}
      (linked : (machine.world.type id).state = .linked)
      (declared : ¬ (machine.world.type id).isArray)
      (ascends : Ascends superclasses (machine.beginning id) ids last) :
      Ascends (id :: superclasses) machine ids last

/-- The initialization of a class fails, and not with that of a class above it. -/
structure Originates (run : Runner Client) (failed : ClassId) (above : List ClassId)
    (machine : Machine Client) : Prop where
  fails : ∃ error later, runFrom machine (initializeAlong run (failed :: above)) =
    (.error error, later)
  alone : ∀ others last, Ascends (failed :: above) machine others last →
    others ≠ failed :: above → ∃ later, runFrom last (initializeAlong run others) = (.ok (), later)

/-- The highest class that the recursion reaches and whose initialization fails there. -/
structure FailsHighest (run : Runner Client) (ids : List ClassId) (machine : Machine Client)
    (failed : ClassId) (above : List ClassId) (middle : Machine Client) : Prop where
  reached : Ascends ids machine (failed :: above) middle
  origin : Originates run failed above middle

/-- Why the highest class fails: it has failed before, or its own initializer raises an error after
the superclasses were initialized. An exception is wrapped. -/
inductive Cause (run : Runner Client) (failed : ClassId) (above : List ClassId)
    (middle : Machine Client) : Error → Prop where
  | refused (before : (middle.world.type failed).state = .initializationError) :
      Cause run failed above middle
        (.linkage (.initializationFailed (middle.world.type failed).name))
  | raised {begun last : Machine Client} {initializer : Method} {error : Error}
      (superclasses : runFrom (middle.beginning failed) (initializeAlong run above) =
        (.ok (), begun))
      (own : (begun.world.type failed).declaredMethod? WellKnown.staticInitializer
        WellKnown.noArguments = some initializer) (isStatic : initializer.isStatic)
      (raises : runFrom { begun with world := begun.world.note failed (.called initializer) }
        (run initializer []) = (.error error, last)) :
      Cause run failed above middle (initializerError error)

/-- What has been wrapped is not wrapped again. -/
theorem Cause.initializerError_eq (cause : Cause run failed above middle error) :
    initializerError error = error := by
  cases cause with
  | refused => rfl
  | @raised _ _ _ error => cases error <;> rfl

/-- The machine after the failure of a class has been entered. -/
def Machine.refusing (machine : Machine Client) (id : ClassId) (error : Error) : Machine Client :=
  { machine with world := machine.world.note id (.failed error) }

/-! ### How a class fails -/

/-- The ways in which the first class of a list fails. -/
inductive FailsAlong (run : Runner Client) (id : ClassId) (superclasses : List ClassId)
    (machine : Machine Client) : Error → Machine Client → Prop where
  | refused (declared : ¬ (machine.world.type id).isArray)
      (before : (machine.world.type id).state = .initializationError) :
      FailsAlong run id superclasses machine
        (.linkage (.initializationFailed (machine.world.type id).name))
        (machine.refusing id (.linkage (.initializationFailed (machine.world.type id).name)))
  | above {error : Error} {middle : Machine Client}
      (linked : (machine.world.type id).state = .linked)
      (declared : ¬ (machine.world.type id).isArray)
      (fails : runFrom (machine.beginning id) (initializeAlong run superclasses) =
        (.error error, middle)) :
      FailsAlong run id superclasses machine (initializerError error)
        ((middle.failing id).refusing id (initializerError error))
  | own {error : Error} {begun middle : Machine Client}
      (linked : (machine.world.type id).state = .linked)
      (declared : ¬ (machine.world.type id).isArray)
      (succeeds : runFrom (machine.beginning id) (initializeAlong run superclasses) =
        (.ok (), begun))
      (fails : runFrom begun (runInitializer run id) = (.error error, middle)) :
      FailsAlong run id superclasses machine (initializerError error)
        ((middle.failing id).refusing id (initializerError error))

theorem initializeAlong_error
    (fails : runFrom machine (initializeFrom run id (initializeAlong run superclasses)) =
      (.error error, later)) :
    runFrom machine (initializeAlong run (id :: superclasses)) =
      (.error error, later.refusing id error) := by
  rw [initializeAlong, runFrom_tryCatch_error fails, runFrom_bind_ok (runFrom_note _ _ _)]
  rfl

theorem initializeFrom_linked (linked : (machine.world.type id).state = .linked)
    (declared : ¬ (machine.world.type id).isArray) (action : MachineM Client Unit) :
    runFrom machine (initializeFrom run id action) =
      runFrom machine (initializeLinked run id action) := by
  rw [initializeFrom, runFrom_bind_ok (runFrom_world machine)]
  dsimp only
  rw [if_neg declared, linked]

theorem canAdvanceTo_of_linked (linked : (machine.world.type id).state = .linked) :
    (machine.world.type id).state.canAdvanceTo .beingInitialized := by
  rw [linked]
  rfl

/-- A class fails with its superclasses. -/
theorem initializeAlong_error_of_above (linked : (machine.world.type id).state = .linked)
    (declared : ¬ (machine.world.type id).isArray)
    (fails : runFrom (machine.beginning id) (initializeAlong run superclasses) =
      (.error error, middle)) :
    runFrom machine (initializeAlong run (id :: superclasses)) =
      (.error (initializerError error),
        (middle.failing id).refusing id (initializerError error)) := by
  apply initializeAlong_error
  rw [initializeFrom_linked linked declared]
  exact initializeLinked_error (canAdvanceTo_of_linked linked) (runFrom_bind_error fails)

/-- Failures come down along the recursion. -/
theorem Ascends.fails (ascends : Ascends ids machine others last)
    (fails : ∃ error later, runFrom last (initializeAlong run others) = (.error error, later)) :
    ∃ error later, runFrom machine (initializeAlong run ids) = (.error error, later) := by
  induction ascends with
  | refl => exact fails
  | above linked declared _ inductionHypothesis =>
      obtain ⟨error, later, fails⟩ := inductionHypothesis fails
      exact ⟨_, _, initializeAlong_error_of_above linked declared fails⟩

/-- An initializer that fails has been called, and has raised the error. -/
theorem runInitializer_raises (fails : runFrom machine (runInitializer run id) =
      (.error error, later)) :
    ∃ initializer last, (machine.world.type id).declaredMethod? WellKnown.staticInitializer
        WellKnown.noArguments = some initializer ∧ initializer.isStatic ∧
      runFrom { machine with world := machine.world.note id (.called initializer) }
        (run initializer []) = (.error error, last) := by
  rw [runInitializer, runFrom_bind_ok (runFrom_world machine)] at fails
  dsimp only at fails
  split at fails
  next initializer own =>
    split at fails
    next isStatic =>
      rcases ends : runFrom { machine with world := machine.world.note id (.called initializer) }
        (run initializer []) with ⟨outcome, last⟩
      rw [callInitializer, runFrom_bind_ok (runFrom_note _ _ _),
        runFrom_bind_ok (runFrom_outcome ends), runFrom_bind_ok (runFrom_note _ _ _)] at fails
      cases outcome with
      | ok result => cases fails
      | error raised =>
          cases fails
          exact ⟨initializer, last, own, isStatic, ends⟩
    next => cases fails
  next => cases fails

/-! ### What failures leave -/

theorem World.Within.stateIn_markFailed {before world : World}
    (within : World.Within id before world) (other : ClassId) :
    JavaMachine.stateIn (world.markFailed id).classes other =
      if other = id then some .initializationError
      else JavaMachine.stateIn world.classes other := by
  have open_ := (stateIn_eq_some.1 within.stateIn).2
  rw [World.markFailed_eq]
  split
  next same =>
    subst same
    rw [World.stateIn_withState _ within.present, open_]
    rfl
  next distinct => exact (World.Restates.withState world id _).stateIn distinct

theorem not_called_note {world : World} {occurrence : Occurrence}
    (quiet : ∀ initializer, occurrence ≠ .called initializer)
    (uncalled : ¬ world.journal.Called other) :
    ¬ (world.note id occurrence).journal.Called other := by
  rintro ⟨moment, membership, type, initializer, calling⟩
  rcases List.mem_cons.1 membership with new | old
  · subst new
    exact quiet initializer calling
  · exact uncalled ⟨moment, old, type, initializer, calling⟩

theorem Machine.lasting_beginning (machine : Machine Client) (id other : ClassId) :
    ((machine.beginning id).world.type other).lasting = (machine.world.type other).lasting :=
  World.lasting_withState machine.world id other _

section InOrder

variable (follows : ∀ method arguments,
  Follows Machine.self (Along World.Keeping) (run method arguments))
variable (inOrder : machine.world.InOrder)

theorem chained_beginning (declared : ¬ (machine.world.type id).isArray)
    (chained : machine.world.Chained (id :: superclasses)) :
    (machine.beginning id).world.Chained superclasses :=
  (chained declared).2.of_lasting (machine.lasting_beginning id)

include follows inOrder

/-- The attempt to initialize a class and its superclasses. -/
theorem initializeAlong_attempts (linked : (machine.world.type id).state = .linked)
    (declared : ¬ (machine.world.type id).isArray)
    (chained : machine.world.Chained (id :: superclasses)) :
    Attempts id machine.world (runFrom (machine.beginning id)
      (do initializeAlong run superclasses; runInitializer run id)) := by
  have within : World.Within id machine.world (machine.beginning id).world := inOrder.begin linked
  have lasting := machine.lasting_beginning id id
  apply superclassFirst_attempts follows within (inOrder.not_called_begin linked)
  · rwa [← Class.lasting_isArray, lasting, Class.lasting_isArray]
  · rw [← Class.lasting_superclass?, lasting, Class.lasting_superclass?, ← (chained declared).1]
    exact initializeAlong_initializes follows superclasses _ within.inOrder
      (chained_beginning declared chained)

/-- A class does not get stuck when it is initialized, so there are no other ways to fail. -/
theorem failsAlong (chained : machine.world.Chained (id :: superclasses))
    (fails : runFrom machine (initializeAlong run (id :: superclasses)) = (.error error, later)) :
    FailsAlong run id superclasses machine error later := by
  rcases ends : runFrom machine (initializeFrom run id (initializeAlong run superclasses))
    with ⟨raised | _, ended⟩
  case ok =>
    rw [initializeAlong, runFrom_tryCatch_ok ends] at fails
    cases fails
  rw [initializeAlong_error ends] at fails
  cases fails
  by_cases isArray : (machine.world.type id).isArray
  case pos =>
    rw [initializeFrom, runFrom_bind_ok (runFrom_world machine), if_pos isArray] at ends
    cases ends
  cases state : (machine.world.type id).state with
  | allocated => exact absurd state (inOrder.atRest id)
  | beingInitialized | fullyInitialized =>
      rw [initializeFrom, runFrom_bind_ok (runFrom_world machine), if_neg isArray, state] at ends
      cases ends
  | initializationError =>
      rw [initializeFrom, runFrom_bind_ok (runFrom_world machine), if_neg isArray, state] at ends
      cases ends
      exact .refused isArray state
  | linked =>
      rw [initializeFrom_linked state isArray] at ends
      have attempts := initializeAlong_attempts follows inOrder state isArray chained
      have may := canAdvanceTo_of_linked state
      rcases superior : runFrom (machine.beginning id) (initializeAlong run superclasses)
        with ⟨reason | _, begun⟩
      · rw [initializeLinked_error may (runFrom_bind_error superior)] at ends
        cases ends
        exact .above state isArray superior
      have attempted : runFrom (machine.beginning id)
          (do initializeAlong run superclasses; runInitializer run id) =
            runFrom begun (runInitializer run id) := runFrom_bind_ok superior
      rcases own : runFrom begun (runInitializer run id) with ⟨reason | _, middle⟩
      · rw [initializeLinked_error may (attempted.trans own)] at ends
        cases ends
        exact .own state isArray superior own
      · rw [attempted, own] at attempts
        have busy := (stateIn_eq_some.1 attempts.within.stateIn).2
        rw [initializeLinked_ok may (attempted.trans own) (by rw [busy]; rfl)] at ends
        cases ends

/-- The highest class that fails has failed before, or fails by its own initializer. -/
theorem Originates.cause (originates : Originates run id superclasses machine)
    (chained : machine.world.Chained (id :: superclasses))
    (ends : runFrom machine (initializeAlong run (id :: superclasses)) = (.error error, later)) :
    Cause run id superclasses machine error := by
  cases failsAlong follows inOrder chained ends with
  | refused _ before => exact .refused before
  | above linked declared fails =>
      obtain ⟨ended, succeeds⟩ := originates.alone superclasses _
        (.above linked declared (.refl _ _)) (List.cons_ne_self id superclasses).symm
      rw [fails] at succeeds
      cases succeeds
  | own linked declared succeeds fails =>
      obtain ⟨initializer, last, own, isStatic, raises⟩ := runInitializer_raises fails
      exact .raised succeeds own isStatic raises

/-- A class is unusable once it has failed. -/
theorem unusable_of_fails (present : id.index < machine.world.classes.size)
    (chained : machine.world.Chained (id :: superclasses))
    (ends : runFrom machine (initializeAlong run (id :: superclasses)) = (.error error, later)) :
    stateIn later.world.classes id = some .initializationError := by
  have marked {middle : Machine Client} (within : World.Within id machine.world middle.world) :
      stateIn (middle.world.markFailed id).classes id = some .initializationError := by
    rw [within.stateIn_markFailed, if_pos rfl]
  cases failsAlong follows inOrder chained ends with
  | refused _ before => exact stateIn_eq_some.2 ⟨present, before⟩
  | above linked declared fails =>
      have attempts := initializeAlong_attempts follows inOrder linked declared chained
      rw [runFrom_bind_error fails] at attempts
      exact marked attempts.within
  | own linked declared succeeds fails =>
      have attempts := initializeAlong_attempts follows inOrder linked declared chained
      rw [runFrom_bind_ok succeeds, fails] at attempts
      exact marked attempts.within

end InOrder

/-- What a failure leaves: from the class that was asked for to the highest that failed all are
unusable, and of those below it no initializer has ever been called. -/
structure Poisons (below : List ClassId) (failed : ClassId) (later : Machine Client) : Prop where
  unusable : ∀ other ∈ below ++ [failed],
    stateIn later.world.classes other = some .initializationError
  uncalled : ∀ other ∈ below, ¬ later.world.journal.Called other

/-- A superclass is there. -/
theorem World.Sound.superclass_present {world : World} (sound : world.Sound)
    (declared : ¬ (world.type id).isArray)
    (superclass : (world.type id).superclass? = some other) : other.index < world.classes.size := by
  rw [Class.superclass?_of_not_isArray declared] at superclass
  obtain ⟨linkage, linked, superclass⟩ := Option.bind_eq_some_iff.1 superclass
  obtain ⟨inherited, linkedTo⟩ :=
    sound.supertype_linked linked (World.mem_supertypes_of_superclass superclass)
  apply Nat.lt_of_not_ge
  intro absent
  rw [World.type_eq_default absent] at linkedTo
  cases linkedTo

section InOrder

variable (follows : ∀ method arguments,
  Follows Machine.self (Along World.Keeping) (run method arguments))
include follows

/-- The failure of the superclasses of a class leaves the class unusable, too. -/
theorem Poisons.cons (inOrder : machine.world.InOrder)
    (linked : (machine.world.type id).state = .linked)
    (declared : ¬ (machine.world.type id).isArray)
    (chained : machine.world.Chained (id :: superclasses))
    (fails : runFrom (machine.beginning id) (initializeAlong run superclasses) =
      (.error error, middle)) (poisons : Poisons below failed middle) :
    Poisons (id :: below) failed ((middle.failing id).refusing id error) := by
  have begun : World.Within id machine.world (machine.beginning id).world := inOrder.begin linked
  have proceeds := (initializeAlong_initializes follows superclasses (machine.beginning id)
    begun.inOrder (chained_beginning declared chained)).proceeds
  rw [fails] at proceeds
  have within : World.Within id machine.world middle.world := begun.proceeds proceeds
  constructor
  · intro other membership
    have states := within.stateIn_markFailed other
    change stateIn (middle.world.markFailed id).classes other = _
    rw [states]
    split
    next => rfl
    next distinct =>
      rcases List.mem_cons.1 membership with same | membership
      · exact absurd same distinct
      · exact poisons.unusable other membership
  · intro other membership
    apply not_called_note (fun _ same => by cases same)
    change ¬ (middle.world.markFailed id).journal.Called other
    rcases List.mem_cons.1 membership with rfl | membership
    · intro called
      apply inOrder.not_called_begin linked
      exact proceeds.growth.calls other (begun.active ▸ List.mem_cons_self) called
    · exact poisons.uncalled other membership

/-- Failures leave all classes unusable through which they come down. -/
theorem Ascends.poisons (ascends : Ascends ids machine others middle)
    (same : others = failed :: above) (originates : Originates run failed above middle)
    (inOrder : machine.world.InOrder) (chained : machine.world.Chained ids)
    (present : ∀ type, ids.head? = some type → type.index < machine.world.classes.size)
    (ends : runFrom machine (initializeAlong run ids) = (.error error, later)) :
    ∃ below, ids = below ++ failed :: above ∧ Poisons below failed later ∧
      Cause run failed above middle error := by
  induction ascends generalizing error later with
  | refl =>
      subst same
      have unusable := unusable_of_fails follows inOrder (present failed rfl) chained ends
      refine ⟨[], rfl, ⟨fun other membership => ?_, fun _ none => by cases none⟩,
        originates.cause follows inOrder chained ends⟩
      rwa [List.mem_singleton.1 membership]
  | @above id superclasses _ machine _ linked declared ascends inductionHypothesis =>
      cases failsAlong follows inOrder chained ends with
      | refused _ before =>
          rw [linked] at before
          cases before
      | own _ _ succeeds _ =>
          obtain ⟨_, _, fails⟩ := ascends.fails (same ▸ originates.fails)
          rw [fails] at succeeds
          cases succeeds
      | above _ _ fails =>
          have begun := (inOrder.begin linked).inOrder
          obtain ⟨next, _⟩ := chained declared
          have presentAbove : ∀ type, superclasses.head? = some type →
              type.index < (machine.beginning id).world.classes.size := by
            intro type above
            have there := inOrder.sound.superclass_present declared (next ▸ above)
            exact Nat.lt_of_lt_of_eq there (World.size_withState machine.world id _).symm
          obtain ⟨below, rfl, poisons, cause⟩ := inductionHypothesis same originates begun
            (chained_beginning declared chained) presentAbove fails
          rw [cause.initializerError_eq]
          exact ⟨id :: below, rfl, .cons follows inOrder linked declared chained fails poisons,
            cause⟩

/-- Where an initialization fails there is a highest class that fails. -/
theorem exists_failsHighest (inOrder : machine.world.InOrder) (chained : machine.world.Chained ids)
    (ends : runFrom machine (initializeAlong run ids) = (.error error, later)) :
    ∃ failed above middle, FailsHighest run ids machine failed above middle := by
  induction ids generalizing machine error later with
  | nil => cases ends
  | cons id superclasses inductionHypothesis =>
      have fails := failsAlong follows inOrder chained ends
      cases fails with
      | refused _ before =>
          refine ⟨id, superclasses, machine, .refl _ _, ⟨_, _, ends⟩, ?_⟩
          intro others last ascends distinct
          cases ascends with
          | refl => exact absurd rfl distinct
          | above linked =>
              rw [linked] at before
              cases before
      | above linked declared fails =>
          obtain ⟨failed, above, middle, reached, origin⟩ := inductionHypothesis
            (inOrder.begin linked).inOrder (chained_beginning declared chained) fails
          exact ⟨failed, above, middle, .above linked declared reached, origin⟩
      | own linked declared succeeds _ =>
          refine ⟨id, superclasses, machine, .refl _ _, ⟨_, _, ends⟩, ?_⟩
          intro others last ascends distinct
          cases ascends with
          | refl => exact absurd rfl distinct
          | above _ _ ascends =>
              rcases ended : runFrom last (initializeAlong run others) with ⟨raised | _, final⟩
              · obtain ⟨_, _, fails⟩ := ascends.fails ⟨_, _, ended⟩
                rw [fails] at succeeds
                cases succeeds
              · exact ⟨final, rfl⟩

end InOrder

/-! ### Refusals -/

/-- From now on every request to initialize the class is refused. No method is run for it and no
class is changed. -/
def World.Refuses (world : World) (id : ClassId) : Prop :=
  ∀ {Client : Type} (run : Runner Client) (machine : Machine Client), machine.world.Passed →
    world.journal <:+ machine.world.journal →
      let error := .linkage (.initializationFailed (machine.world.type id).name)
      runFrom machine (initializeClass run id) = (.error error, machine.refusing id error)

/-- What has failed stays so. -/
theorem World.refuses_of_unusable {world : World} (pictured : world.journal.picture = world.classes)
    (unusable : stateIn world.classes id = some .initializationError) : world.Refuses id := by
  rw [← pictured] at unusable
  intro Client run machine passed suffix error
  have final := passed.inOrder.final suffix rfl unusable
  have state := (stateIn_eq_some.1 final).2
  have declared : ¬ (machine.world.type id).isArray := by
    intro isArray
    rw [(passed.clean.vetted.classes id).array isArray] at state
    cases state
  obtain ⟨superclasses, along⟩ := List.head?_eq_some_iff.1
    (World.head?_superclassesWithin machine.world (machine.world.height id) id)
  rw [initializeClass, runFrom_bind_ok (runFrom_world machine), World.superclasses, along]
  apply initializeAlong_error
  rw [initializeFrom, runFrom_bind_ok (runFrom_world machine), if_neg declared, state]
  rfl

/-- The entry of a failure pictures what it leaves. -/
theorem pictured_of_fails
    (fails : runFrom machine (initializeAlong run (id :: superclasses)) = (.error error, later)) :
    later.world.journal.picture = later.world.classes := by
  rcases ends : runFrom machine (initializeFrom run id (initializeAlong run superclasses))
    with ⟨raised | _, ended⟩
  · rw [initializeAlong_error ends] at fails
    cases fails
    rfl
  · rw [initializeAlong, runFrom_tryCatch_ok ends] at fails
    cases fails

/-- A failed initialization. There is a highest class that fails along the superclasses of the one
that was asked for. From this one up to the highest all are unusable, and are refused from now on;
no initializer of one below the highest has been called; and what comes out is what the highest
class has failed with, wrapped once if it is an exception that its initializer raised. -/
theorem initializeClass_poisons (callback : Callback Client) (depth : Nat)
    (passed : machine.world.Passed) (linked : (machine.world.type id).state = .linked)
    (ends : runFrom machine (initializeClass (callback.runner depth) id) = (.error error, later)) :
    let run := callback.runner depth
    let ids := machine.world.superclasses id
    (∃ failed above middle, FailsHighest run ids machine failed above middle) ∧
      ∀ failed above middle, FailsHighest run ids machine failed above middle →
        ∃ below, ids = below ++ failed :: above ∧ id ∈ below ++ [failed] ∧
          Poisons below failed later ∧ Cause run failed above middle error ∧
          ∀ other ∈ below ++ [failed], later.world.Refuses other := by
  intro run ids
  have inOrder := passed.inOrder
  have follows := (runner_keeping callback depth).runs
  have chained : machine.world.Chained ids := inOrder.sound.chained_superclasses id
  have first : ids.head? = some id := World.head?_superclassesWithin machine.world _ id
  rw [initializeClass, runFrom_bind_ok (runFrom_world machine)] at ends
  refine ⟨exists_failsHighest follows inOrder chained ends, fun failed above middle highest => ?_⟩
  have present : ∀ type, ids.head? = some type → type.index < machine.world.classes.size := by
    intro type head
    cases first.symm.trans head
    exact World.present_of_state (by simp [linked])
  obtain ⟨below, split, poisons, cause⟩ :=
    highest.reached.poisons follows rfl highest.origin inOrder chained present ends
  have pictured : later.world.journal.picture = later.world.classes := by
    obtain ⟨superclasses, along⟩ := List.head?_eq_some_iff.1 first
    change runFrom machine (initializeAlong _ ids) = _ at ends
    rw [along] at ends
    exact pictured_of_fails ends
  refine ⟨below, split, ?_, poisons, cause, fun other among =>
    World.refuses_of_unusable pictured (poisons.unusable other among)⟩
  rw [split] at first
  cases below with
  | nil =>
      cases first
      exact List.mem_singleton_self _
  | cons lowest rest =>
      cases first
      exact List.mem_cons_self

namespace Collapsing

set_option maxRecDepth 20000

/-- The file of a class with a static initializer. -/
def file (name superclass : String) : ClassFile :=
  let file : ClassFile := .withoutMembers 0x0021 name superclass []
  { file with
    pool := file.pool ++
      ["<clinit>", "()V"].map fun text => .utf8 (Text.ModifiedUtf8.encode text)
    methods := [⟨⟨0x0008⟩, 5, 6, []⟩] }

def files : List (String × ClassFile) :=
  [("java/lang/Object", .withoutMembers 0x0021 "java/lang/Object" "" []),
    ("Cellar", file "Cellar" "java/lang/Object"), ("House", file "House" "Cellar")]

def house : ClassId := ⟨0⟩
def cellar : ClassId := ⟨1⟩
def root : ClassId := ⟨2⟩

/-- What every initializer raises. -/
def flood : RuntimeException := .raised "Flood" "too much rain"

def callback : Callback Unit := fun _ _ => .done (.error flood)

def runner : Runner Unit := callback.runner 1

/-- Loads the classes. -/
def session : Session where
  callback := callback
  depth := 1
  program := Program.ask (.load .bootstrap "House")
  sources := [.holding files]
  client := ()

/-- Before the initialization. -/
def start : Machine Unit := ⟨session.last.world, ()⟩

/-- The machine when the recursion has reached the superclass. -/
def reached : Machine Unit := start.beginning house

theorem linked : (start.world.type house).state = .linked ∧
    (start.world.type house).isArray = false ∧
    start.world.superclasses house = [house, cellar, root] ∧
    (reached.world.type cellar).state = .linked ∧
    (reached.world.type cellar).isArray = false := by
  decide +kernel

theorem fails :
    (runFrom start (initializeClass runner house)).1 =
      .error (.linkage (.initializerRaised flood)) ∧
    (runFrom reached (initializeAlong runner [cellar, root])).1 =
      .error (.linkage (.initializerRaised flood)) ∧
    (runFrom (reached.beginning cellar) (initializeAlong runner [root])).1 = .ok () := by
  decide +kernel

theorem passed : start.world.Passed := by
  have met : session.last.world.Met := ⟨session, session.last_mem_worlds⟩
  simpa only [start] using met.passed

/-- The superclass is the highest class that fails. -/
theorem failsHighest : FailsHighest runner [house, cellar, root] start cellar [root] reached := by
  obtain ⟨linked, declared, _, linkedToo, declaredToo⟩ := linked
  obtain ⟨_, failsAbove, succeeds⟩ := fails
  have declared : ¬ (start.world.type house).isArray := by simp [declared]
  refine ⟨.above linked declared (.refl _ _), ?_, ?_⟩
  · rcases ends : runFrom reached (initializeAlong runner [cellar, root]) with ⟨outcome, last⟩
    rw [ends] at failsAbove
    exact ⟨_, last, by rw [← failsAbove]⟩
  · intro others last ascends distinct
    cases ascends with
    | refl => exact absurd rfl distinct
    | above _ _ ascends =>
        cases ascends with
        | refl =>
            rcases ends : runFrom (reached.beginning cellar) (initializeAlong runner [root])
              with ⟨outcome, last⟩
            rw [ends] at succeeds
            exact ⟨last, by rw [← succeeds]⟩
        | above _ _ ascends =>
            cases ascends
            exact ⟨_, rfl⟩

end Collapsing

/-- Where the initializer of `Cellar` raises an exception, `House` becomes unusable with it, and its
own initializer is not called. -/
theorem initializeClass_poisons_house :
    Collapsing.start.world.Passed ∧
      (Collapsing.start.world.type Collapsing.house).state = .linked ∧
      ∃ later, runFrom Collapsing.start (initializeClass Collapsing.runner Collapsing.house) =
          (.error (.linkage (.initializerRaised Collapsing.flood)), later) ∧
        Poisons [Collapsing.house] Collapsing.cellar later ∧
        later.world.Refuses Collapsing.house ∧ later.world.Refuses Collapsing.cellar := by
  obtain ⟨linked, _, superclasses, _⟩ := Collapsing.linked
  rcases ends : runFrom Collapsing.start (initializeClass Collapsing.runner Collapsing.house)
    with ⟨outcome, later⟩
  have outcome_eq := Collapsing.fails.1
  rw [ends] at outcome_eq
  obtain rfl : outcome = _ := outcome_eq
  obtain ⟨_, highest⟩ :=
    initializeClass_poisons Collapsing.callback 1 Collapsing.passed linked ends
  rw [superclasses] at highest
  obtain ⟨below, split, _, poisons, _, refuses⟩ := highest _ _ _ Collapsing.failsHighest
  obtain rfl : [Collapsing.house] = below := List.append_cancel_right split
  exact ⟨Collapsing.passed, linked, later, rfl, poisons, refuses _ (by simp), refuses _ (by simp)⟩

end JavaMachine
