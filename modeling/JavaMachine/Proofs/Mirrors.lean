import JavaMachine.Proofs.Operands
import JavaMachine.Proofs.Sparing

/-!
# Mirrors

As long as directories are spared the mirrors of all classes are in order: in whatever order classes
are loaded, and whichever of them has the class loaded of which mirrors are instances. Where classes
are loaded as constants there is a mirror to be pushed.
-/

namespace JavaMachine

open World

variable {world later : World} {id : ClassId}

/-! ### What mirrors stand for -/

theorem Object.mirrored?_of_lasting {object : Object} {type : ClassId}
    (lasting : object.lasting = (type, some (.mirror id))) :
    object.type = type ∧ object.mirrored? = some id := by
  obtain ⟨own, body⟩ := object
  cases body with
  | record fields attachment =>
      cases lasting
      exact ⟨rfl, rfl⟩
  | primitives | references => cases lasting

namespace World

/-- An object is a mirror of a class: an instance of the class that the bootstrap loader has defined
and entered for them, with that other class as its target. -/
structure IsMirrorOf (world : World) (mirror : ObjectId) (id : ClassId) : Prop where
  entered : world.mirrorClass? = some (world.object mirror).type
  isClass : (world.typeOf mirror).IsMirrorClass
  target : (world.object mirror).mirrored? = some id

theorem Mirrored.isMirrorOf (mirrored : world.Mirrored) (regular : world.Regular)
    {mirror : ObjectId} (has : (world.type id).mirror = some mirror) :
    world.IsMirrorOf mirror id := by
  obtain ⟨type, entry, lasting⟩ := mirrored.shows id mirror has
  obtain ⟨rfl, target⟩ := Object.mirrored?_of_lasting lasting
  have stands := regular.entries _ _ _ entry
  exact ⟨entry, ⟨stands.name, stands.loader⟩, target⟩

/-- An object is a mirror of one class at most. -/
theorem IsMirrorOf.unique {mirror : ObjectId} {other : ClassId} (first : world.IsMirrorOf mirror id)
    (second : world.IsMirrorOf mirror other) : id = other :=
  Option.some_inj.1 (first.target.symm.trans second.target)

/-! ### Classes loaded as constants -/

/-- A class that can be used has a mirror given to it if there are any. -/
theorem Mirrored.runFrom_ensureMirror (mirrored : world.Mirrored) (sound : world.Sound)
    (has : world.mirrorClass?.isSome) (usable : (world.type id).isUsable) :
    ∃ mirror later, runFrom world (ensureMirror id) = (.ok (), later) ∧ world.Evolves later ∧
      (later.type id).mirror = some mirror := by
  have titled := sound.titles id usable
  obtain ⟨_, outcome⟩ := ensureMirror_delivers sound fun plain =>
    linkage?_of_isUsable usable fun isArray => plain (titled.array isArray).head?
  have ends := runFrom_eq_of_outcome outcome
  obtain ⟨evolves, shown⟩ := (ensureMirror_ends id sound).ok ends
  have hasLater : (runFrom world (ensureMirror id)).2.mirrorClass?.isSome := by
    obtain ⟨type, entry⟩ := Option.isSome_iff_exists.1 has
    exact Option.isSome_of_eq_some (evolves.retains.findLoaded entry)
  obtain ⟨mirror, found⟩ :=
    Option.isSome_iff_exists.1 (shown mirrored hasLater (present_of_isUsable usable))
  exact ⟨mirror, _, ends, evolves, found⟩

end World

theorem FrameM.runFrom_loadClass {Client : Type} {frame : Frame Client} {current : ClassId}
    {index : UInt16} {middle : World} {mirror : ObjectId} (sound : frame.machine.world.Sound)
    (resolves : runFrom frame.machine.world (resolveClass current index) = (.ok id, middle))
    (ensures : runFrom middle (ensureMirror id) = (.ok (), later))
    (has : (later.type id).mirror = some mirror) :
    runFrom frame (loadConstant current index) =
      (.ok (),
        ⟨{ frame.machine with world := later }, .reference (some mirror) :: frame.stack⟩) := by
  have resolved : runFrom frame.machine.world (resolve current .classRef index) =
    (.ok id, middle) := resolves
  have gives : runFrom frame (constantValue current index .classRef) =
      (.ok (.reference (some mirror)),
        { frame with machine := { frame.machine with world := later } }) := by
    have looks : runFrom { frame with machine := { frame.machine with world := later } } world =
      (.ok later, { frame with machine := { frame.machine with world := later } }) := rfl
    rw [constantValue, runFrom_bind_ok (onWorld_of_runFrom resolves),
      runFrom_bind_ok (onWorld_of_runFrom ensures), runFrom_bind_ok looks]
    dsimp only
    rw [has]
    rfl
  exact (runFrom_loadConstant (tagAt_of_resolve sound resolved)).trans (runFrom_bind_ok gives)

namespace World

/-- A class loaded as a constant has its mirror pushed, whatever methods do. -/
theorem Mirrored.pushes (mirrored : world.Mirrored) (clean : world.Clean) (regular : world.Regular)
    (has : world.mirrorClass?.isSome) {current : ClassId} {index : UInt16} {middle : World}
    (resolves : runFrom world (resolveClass current index) = (.ok id, middle)) :
    ∃ mirror later, world.KeepsMirrors later ∧ (later.type id).mirror = some mirror ∧
      later.IsMirrorOf mirror id ∧
      ∀ {Client : Type} (run : Runner Client) (client : Client) (stack : OperandStack),
        (Operation.execute current (.ldc index) stack).perform run ⟨world, client⟩ =
          ((.ok (), .reference (some mirror) :: stack), ⟨later, client⟩) := by
  obtain ⟨searches, found⟩ := (resolve_ends current .classRef index clean.sound).ok resolves
  have hasStill : middle.mirrorClass?.isSome := by
    obtain ⟨type, entry⟩ := Option.isSome_iff_exists.1 has
    exact Option.isSome_of_eq_some (searches.retains.findLoaded entry)
  obtain ⟨mirror, later, ensures, evolves, shows⟩ :=
    (searches.mirrored mirrored).runFrom_ensureMirror searches.sound hasStill
      (found.offers clean.vetted)
  refine ⟨mirror, later, searches.keepsMirrors.trans evolves.keepsMirrors, shows,
    (evolves.mirrored (searches.mirrored mirrored)).isMirrorOf
      (evolves.regular (searches.regular regular)) shows, fun {Client} run client stack => ?_⟩
  have loads := @FrameM.runFrom_loadClass _ _ _ ⟨⟨world, client⟩, stack⟩ _ _ _ _ clean.sound
    resolves ensures shows
  change (((runFrom (Frame.mk ⟨world, client⟩ stack) (FrameM.loadConstant current index)).1,
    (runFrom (Frame.mk ⟨world, client⟩ stack) (FrameM.loadConstant current index)).2.stack),
      (runFrom (Frame.mk ⟨world, client⟩ stack) (FrameM.loadConstant current index)).2.machine) = _
  rw [loads]

/-! ### Sessions -/

instance : Bond KeepsMirrors := ⟨.refl, .trans⟩

instance : Steady KeepsMirrors Mirrored where
  works _ works mirrored := ⟨works.mirrored mirrored, works.keepsMirrors⟩
  note {world} _ _ _ mirrored :=
    ⟨mirrored.of_lasting (fun _ => rfl) (fun _ => rfl) (.of_eq rfl) rfl, .refl world⟩
  move {world id state} _ _ mirrored :=
    ⟨mirrored.withState id state, (sameMirrors_withState world id state).keepsMirrors⟩

theorem mirrored_initial (sources : List Source) : (World.initial sources).Mirrored where
  shows id mirror has := by
    rw [type_eq_default (Nat.zero_le _)] at has
    cases has
  complete has := by cases has
  entered id _ usable := absurd (present_of_isUsable usable) (Nat.not_lt_zero _)

end World

namespace Session

variable {session : Session}

theorem storesKeep_mirrored (rule : World → Operation → Prop) :
    StoresKeep KeepsMirrors rule Mirrored :=
  storesKeep_of_develops fun _ develops mirrored =>
    ⟨develops.mirrored mirrored, develops.keepsMirrors⟩

theorem Spares.mirrored (spares : session.Spares) (met : world ∈ session.worlds) :
    world.Mirrored := by
  have joins := Session.joins_of_abides (storesKeep_mirrored _) (rebindsKeep_spared _ _) spares
    (World.mirrored_initial session.sources)
  exact (joins.holds_of_mem_worlds world met).holds

end Session

namespace Reflections

def sources : List Source :=
  [.holding [("java/lang/Object", .withoutMembers 0x0021 "java/lang/Object" "" []),
    ("java/lang/Class", .withoutMembers 0x0031 "java/lang/Class" "java/lang/Object" [])]]

/-- What a loader has that asks the bootstrap loader. -/
def upper : Source := .holding [("User", .withoutMembers 0x0021 "User" "java/lang/Object" [])]

/-- An array class and its superclass are loaded before the class of which mirrors are instances. -/
def before : List Operation :=
  [.load .bootstrap "[I", .load .bootstrap "java/lang/Class", .addLoader "upper" .bootstrap [upper]]

/-- A class of the other loader is loaded after it. -/
def operations : List Operation := before ++ [.load ⟨1⟩ "User"]

def session : Session := .inOrder sources operations

/-- The world in which there is no mirror yet. -/
def early : World := (World.initial sources).after [.load .bootstrap "[I"]

def last : World := (World.initial sources).after operations

def ints : ClassId := ⟨1⟩
def user : ClassId := ⟨3⟩

theorem plain : ∀ operation ∈ operations, operation.runsMethods = false := by
  simp [operations, before, Operation.runsMethods]

theorem spares : session.Spares := by
  refine Session.abides_inOrder plain fun operation among world => ?_
  simp only [operations, before, List.cons_append, List.nil_append, List.mem_cons,
    List.not_mem_nil, or_false] at among
  rcases among with rfl | rfl | rfl | rfl <;> exact not_false

theorem met : last ∈ session.worlds :=
  Session.mem_worlds_of_since (Session.since_inOrder sources before [] (.load ⟨1⟩ "User") plain)

set_option maxRecDepth 20000 in
theorem loads : (early.type ints).mirror = none ∧ last.findLoaded .bootstrap "[I" = some ints ∧
    last.mirrorClass?.isSome ∧
      (runFrom last (World.resolveClass user 2)).1 = .ok user := by
  decide +kernel

end Reflections

end JavaMachine
