import JavaMachine.Program
import JavaMachine.Proofs.Resolution

/-!
# Operations follow what methods and initializations follow

Operations touch the world in three ways: by work under which it develops, by running methods, and
by initializing classes. A transitive relation on worlds that holds along the first kind therefore
holds along every operation and every program, as soon as it holds along the other two. The two
operations that interfere with directories are apart: under them the world is known to last only.
-/

namespace JavaMachine

/-- Between two pieces of work no class is left unlinked. -/
def World.AtRest (world : World) : Prop := ∀ id, (world.type id).state ≠ .allocated

/-- What comes in when a world grows is linked, or has failed. -/
theorem World.Grows.atRest {world later : World} (grows : world.Grows later)
    (atRest : world.AtRest) : later.AtRest := by
  intro id
  rcases Nat.lt_or_ge id.index world.classes.size with present | absent
  · rw [grows.state id present]
    exact atRest id
  · exact (grows.fresh id absent).not_allocated

/-- A transitive relation on machines that holds along work on a sound world at rest. -/
class Trail {Client : Type} (relation : Machine Client → Machine Client → Prop) : Prop where
  trans : ∀ {machine middle later}, relation machine middle → relation middle later →
    relation machine later
  work : ∀ {machine : Machine Client} {later : World},
    (machine.world.Sound → machine.world.AtRest → machine.world.Works later) →
      relation machine { machine with world := later }

/-- The relation holds wherever a sound world at rest lasts and the contents of fields and arrays
are left alone. -/
def Trail.Bears {Client : Type} (relation : Machine Client → Machine Client → Prop) : Prop :=
  ∀ (machine : Machine Client) (later : World),
    (machine.world.Sound → machine.world.AtRest →
      machine.world.Lasts later ∧ machine.world.LeavesContents later) →
    relation machine { machine with world := later }

/-- A trail that also leads wherever a sound world at rest develops. -/
class Trail.Develops {Client : Type} (relation : Machine Client → Machine Client → Prop) :
    Prop extends Trail relation where
  develop : ∀ {machine : Machine Client} {later : World},
    (machine.world.Sound → machine.world.AtRest → machine.world.Develops later) →
      relation machine { machine with world := later }
  work := fun works => develop fun sound atRest => (works sound atRest).toDevelops

theorem Trail.refl {Client : Type} {relation : Machine Client → Machine Client → Prop}
    [Trail relation] (machine : Machine Client) : relation machine machine := by
  have works : machine.world.Sound → machine.world.AtRest → machine.world.Works machine.world :=
    fun sound _ => (World.Evolves.refl sound).toWorks
  exact work works

/-- A transitive relation that holds wherever a sound world at rest develops. -/
class Course (relation : World → World → Prop) : Prop where
  trans : ∀ {world middle later}, relation world middle → relation middle later →
    relation world later
  develop : ∀ {world later : World}, (world.Sound → world.AtRest → world.Develops later) →
    relation world later

/-- The relation holds wherever a sound world at rest lasts. -/
def Course.Bears (relation : World → World → Prop) : Prop :=
  ∀ world later : World, (world.Sound → world.AtRest → world.Lasts later) → relation world later

/-- The relation on machines that holds where one holds between their worlds. -/
def Along {Client : Type} (relation : World → World → Prop) (machine later : Machine Client) :
    Prop :=
  relation machine.world later.world

instance {Client : Type} {relation : World → World → Prop} [Course relation] :
    Trail.Develops (Along relation : Machine Client → Machine Client → Prop) where
  trans first second := show relation _ _ from Course.trans first second
  develop develops := show relation _ _ from Course.develop develops

theorem Course.Bears.along {Client : Type} {relation : World → World → Prop}
    (bears : Course.Bears relation) :
    Trail.Bears (Along relation : Machine Client → Machine Client → Prop) :=
  fun _ later lasts => bears _ later fun sound atRest => (lasts sound atRest).1

/-- A machine as it is, in view of itself. -/
abbrev Machine.self {Client : Type} (machine : Machine Client) : Machine Client := machine

/-- The computation leads from every state along a relation on the machines in view. -/
structure Follows {σ α Client : Type} (view : σ → Machine Client)
    (relation : Machine Client → Machine Client → Prop) (action : ExceptT Error (StateM σ) α) :
    Prop where
  leads : ∀ start, relation (view start) (view (runFrom start action).2)

namespace Follows

variable {σ α β Client : Type} {view : σ → Machine Client}
variable {relation : Machine Client → Machine Client → Prop} [Trail relation]

theorem pure (result : α) : Follows view relation (Pure.pure result) :=
  ⟨fun _ => Trail.refl _⟩

theorem throw (error : Error) :
    Follows view relation (MonadExcept.throw error : ExceptT Error (StateM σ) α) :=
  ⟨fun _ => Trail.refl _⟩

theorem ofExcept (outcome : Except Error α) :
    Follows view relation (ofExcept outcome : ExceptT Error (StateM σ) α) := by
  cases outcome with
  | ok result => exact pure result
  | error error => exact throw error

theorem bind {action : ExceptT Error (StateM σ) α} {next : α → ExceptT Error (StateM σ) β}
    (first : Follows view relation action) (rest : ∀ result, Follows view relation (next result)) :
    Follows view relation (action >>= next) := by
  constructor
  intro start
  have leads := first.leads start
  rcases ends : runFrom start action with ⟨error | result, middle⟩
  all_goals rw [ends] at leads
  · rw [runFrom_bind_error ends]
    exact leads
  · rw [runFrom_bind_ok ends]
    exact Trail.trans leads ((rest result).leads middle)

theorem map {action : ExceptT Error (StateM σ) α} {change : α → β}
    (follows : Follows view relation action) : Follows view relation (change <$> action) := by
  rw [map_eq_pure_bind]
  exact bind follows fun _ => pure _

/-- A computation on the world of a machine. -/
theorem onWorld {action : WorldM α}
    (works : ∀ world : World, world.Sound → world.Works (runFrom world action).2) :
    Follows Machine.self relation (MachineM.onWorld action : MachineM Client α) :=
  ⟨fun machine => Trail.work fun sound _ => works machine.world sound⟩

theorem of_working {action : WorldM α} (working : Working action) :
    Follows Machine.self relation (MachineM.onWorld action : MachineM Client α) :=
  onWorld fun world sound => (working world sound).leads

end Follows

namespace FrameM

variable {α Client : Type} {relation : Machine Client → Machine Client → Prop}

theorem onMachine_follows {action : MachineM Client α}
    (follows : Follows Machine.self relation action) :
    Follows Frame.machine relation (onMachine action) :=
  ⟨fun frame => follows.leads frame.machine⟩

variable [Trail relation]

theorem onWorld_follows {action : WorldM α} (working : Working action) :
    Follows Frame.machine relation (onWorld action : FrameM Client α) :=
  onMachine_follows (.of_working working)

theorem onStack_follows (action : StackM α) :
    Follows Frame.machine relation (onStack action : FrameM Client α) :=
  ⟨fun _ => Trail.refl _⟩

theorem world_follows : Follows Frame.machine relation (world : FrameM Client World) :=
  ⟨fun _ => Trail.refl _⟩

/-! ### Instructions on arrays -/

theorem popArray_follows : Follows Frame.machine relation (popArray : FrameM Client ObjectId) := by
  apply Follows.bind (onStack_follows _)
  intro popped
  split
  · exact Follows.pure _
  · exact Follows.throw _

theorem loadElement_follows (type : CellType) :
    Follows Frame.machine relation (loadElement type : FrameM Client Unit) := by
  apply Follows.bind (onStack_follows _)
  intro index
  apply Follows.bind popArray_follows
  intro array
  apply Follows.bind world_follows
  intro world
  apply Follows.bind (Follows.ofExcept _)
  intro cell
  exact onStack_follows _

theorem storeElement_follows (type : CellType) :
    Follows Frame.machine relation (storeElement type : FrameM Client Unit) := by
  apply Follows.bind (onStack_follows _)
  intro cell
  apply Follows.bind (onStack_follows _)
  intro index
  apply Follows.bind popArray_follows
  intro array
  exact onWorld_follows (World.putElement_evolving array type index cell).working

theorem loadReference_follows :
    Follows Frame.machine relation (loadReference : FrameM Client Unit) := by
  apply Follows.bind (onStack_follows _)
  intro index
  apply Follows.bind popArray_follows
  intro array
  apply Follows.bind world_follows
  intro world
  apply Follows.bind (Follows.ofExcept _)
  intro element
  exact onStack_follows _

theorem arrayLength_follows :
    Follows Frame.machine relation (arrayLength : FrameM Client Unit) := by
  apply Follows.bind (onStack_follows _)
  intro popped
  split
  · exact Follows.throw _
  · apply Follows.bind world_follows
    intro world
    split
    · exact onStack_follows _
    · exact Follows.throw _

theorem popLength_follows : Follows Frame.machine relation (popLength : FrameM Client Nat) := by
  apply Follows.bind (onStack_follows _)
  intro popped
  split
  · exact Follows.pure _
  · exact Follows.throw _

theorem newPrimitiveArray_follows (number : Int32) :
    Follows Frame.machine relation (newPrimitiveArray number : FrameM Client Unit) := by
  apply Follows.bind popLength_follows
  intro length
  split
  · exact Follows.throw _
  next element _ =>
    apply Follows.bind (onWorld_follows (World.primitiveArrayClass_evolving _).working)
    intro type
    apply Follows.bind (onWorld_follows (World.allocatePrimitives_evolving type length).working)
    intro array
    exact onStack_follows _

theorem newReferenceArray_follows (current : ClassId) (index : UInt16) :
    Follows Frame.machine relation (newReferenceArray current index : FrameM Client Unit) := by
  apply Follows.bind popLength_follows
  intro length
  apply Follows.bind (onWorld_follows (World.resolveClass_working current index))
  intro component
  apply Follows.bind (onWorld_follows (World.arrayClassOf_evolving component).working)
  intro type
  apply Follows.bind (onWorld_follows (World.allocateReferences_evolving type length).working)
  intro array
  exact onStack_follows _

theorem popInts_follows (count : Nat) (popped : List Int32) :
    Follows Frame.machine relation (popInts count popped : FrameM Client (List Int32)) := by
  induction count generalizing popped with
  | zero => exact Follows.pure popped
  | succ count inductionHypothesis =>
      apply Follows.bind (onStack_follows _)
      intro value
      exact inductionHypothesis (value :: popped)

theorem newNestedArray_follows (current : ClassId) (index : UInt16) (dimensions : UInt8) :
    Follows Frame.machine relation
      (newNestedArray current index dimensions : FrameM Client Unit) := by
  apply Follows.bind (onWorld_follows (World.resolveClass_working current index))
  intro id
  apply Follows.bind world_follows
  intro world
  dsimp only
  split
  · exact Follows.throw _
  · apply Follows.bind (popInts_follows dimensions.toNat [])
    intro ints
    split
    · exact Follows.throw _
    next lengths _ =>
      apply Follows.bind (onWorld_follows (World.allocateNested_evolving lengths id).working)
      intro array
      exact onStack_follows _

/-! ### Instructions on classes -/

theorem constantValue_follows (current : ClassId) (index : UInt16) (tag : ConstantTag) :
    Follows Frame.machine relation (constantValue current index tag : FrameM Client Value) := by
  unfold constantValue
  split
  · exact Follows.map (onWorld_follows (World.resolve_working current .int index))
  · exact Follows.map (onWorld_follows (World.resolve_working current .float index))
  · exact Follows.map (onWorld_follows (World.resolve_working current .long index))
  · exact Follows.map (onWorld_follows (World.resolve_working current .double index))
  · apply Follows.bind (onWorld_follows (World.resolve_working current .string index))
    intro object
    exact Follows.pure _
  · apply Follows.bind (onWorld_follows (World.resolveClass_working current index))
    intro id
    apply Follows.bind (onWorld_follows (World.ensureMirror_evolving id).working)
    intro _
    apply Follows.bind world_follows
    intro later
    dsimp only
    split
    · exact Follows.pure _
    · exact Follows.throw _
  · exact Follows.throw _

theorem loadConstant_follows (current : ClassId) (index : UInt16) :
    Follows Frame.machine relation (loadConstant current index : FrameM Client Unit) := by
  apply Follows.bind world_follows
  intro world
  apply Follows.bind (Follows.ofExcept _)
  intro tag
  apply Follows.bind (constantValue_follows current index tag)
  intro value
  exact onStack_follows _

theorem testInstance_follows (current : ClassId) (index : UInt16) :
    Follows Frame.machine relation (testInstance current index : FrameM Client Unit) := by
  apply Follows.bind (onStack_follows _)
  intro popped
  split
  · exact onStack_follows _
  · apply Follows.bind (onWorld_follows (World.resolveClass_working current index))
    intro target
    apply Follows.bind world_follows
    intro world
    exact onStack_follows _

theorem checkCast_follows (current : ClassId) (index : UInt16) :
    Follows Frame.machine relation (checkCast current index : FrameM Client Unit) := by
  apply Follows.bind (onStack_follows _)
  intro popped
  split
  · exact onStack_follows _
  · apply Follows.bind (onWorld_follows (World.resolveClass_working current index))
    intro target
    apply Follows.bind world_follows
    intro world
    split
    · exact onStack_follows _
    · exact Follows.throw _

theorem fieldAt_follows (current : ClassId) (index : UInt16) (static : Bool) :
    Follows Frame.machine relation (fieldAt current index static : FrameM Client FieldSlot) := by
  apply Follows.bind (onWorld_follows (World.resolveField_working current index))
  intro found
  split
  · exact Follows.throw _
  · split
    · exact Follows.pure _
    · split
      · exact Follows.throw _
      · exact Follows.throw _

theorem methodAt_follows (current : ClassId) (index : UInt16) :
    Follows Frame.machine relation (methodAt current index : FrameM Client Method) := by
  apply Follows.bind world_follows
  intro world
  apply Follows.bind (Follows.ofExcept _)
  intro tag
  refine Follows.bind (onWorld_follows ?_) fun found => ?_
  · split
    · exact World.resolveInterfaceMethod_working current index
    · exact World.resolveMethod_working current index
  · split
    · exact Follows.pure _
    · exact Follows.throw _

end FrameM

/-! ### Methods and initializations -/

/-- The instruction stores a value in a field, or a reference in an array. -/
def Instruction.Stores : Instruction → Prop
  | putstatic _ | putfield _ | aastore => True
  | _ => False

/-- Running methods and initializing classes follow the relation. -/
structure Runner.Follows {Client : Type} (relation : Machine Client → Machine Client → Prop)
    (run : Runner Client) : Prop where
  runs : ∀ method arguments, JavaMachine.Follows Machine.self relation (run method arguments)
  initializes : ∀ id, JavaMachine.Follows Machine.self relation (initializeClass run id)

variable {α Client : Type} {relation : Machine Client → Machine Client → Prop} [Trail relation]
variable {run : Runner Client}

theorem MachineM.world_follows :
    Follows Machine.self relation (MachineM.world : MachineM Client World) :=
  ⟨fun _ => Trail.refl _⟩

theorem MachineM.discard_follows {action : MachineM Client α}
    (follows : Follows Machine.self relation action) :
    Follows Machine.self relation (discard action) :=
  Follows.map follows

theorem readField_follows (follows : run.Follows relation) (slot : Option FieldSlot)
    (receiver : Option ObjectId) :
    Follows Machine.self relation (readField run slot receiver) := by
  unfold readField
  split
  · exact Follows.throw _
  · apply Follows.bind (follows.initializes _)
    intro _
    apply Follows.bind MachineM.world_follows
    intro world
    split
    · exact Follows.ofExcept _
    · exact Follows.ofExcept _
    · exact Follows.throw _
    · exact Follows.throw _

theorem construct_follows (follows : run.Follows relation) (object : ObjectId) :
    Follows Machine.self relation (construct run object) := by
  apply Follows.bind MachineM.world_follows
  intro world
  dsimp only
  split
  · exact Follows.throw _
  · split
    · exact MachineM.discard_follows (follows.runs _ _)
    · exact Follows.throw _

namespace FrameM

theorem callWith_follows (follows : run.Follows relation) (method : Method)
    (arguments : List Value) : Follows Frame.machine relation (callWith run method arguments) := by
  apply Follows.bind (onMachine_follows (follows.runs method arguments))
  intro result
  exact onStack_follows _

theorem call_follows (follows : run.Follows relation) (method : Method) :
    Follows Frame.machine relation (call run method) := by
  apply Follows.bind (onStack_follows _)
  intro arguments
  exact callWith_follows follows method arguments

theorem invokeSpecial_follows (follows : run.Follows relation) (current : ClassId)
    (index : UInt16) : Follows Frame.machine relation (invokeSpecial run current index) := by
  apply Follows.bind (methodAt_follows current index)
  intro method
  split
  · exact Follows.throw _
  · split
    · exact Follows.throw _
    · exact call_follows follows method

theorem invokeStatic_follows (follows : run.Follows relation) (current : ClassId)
    (index : UInt16) : Follows Frame.machine relation (invokeStatic run current index) := by
  apply Follows.bind (methodAt_follows current index)
  intro method
  split
  · exact Follows.throw _
  · apply Follows.bind (onMachine_follows (follows.initializes method.owner))
    intro _
    exact call_follows follows method

theorem invokeDynamic_follows (follows : run.Follows relation) (current : ClassId)
    (index : UInt16) : Follows Frame.machine relation (invokeDynamic run current index) := by
  apply Follows.bind (methodAt_follows current index)
  intro resolved
  split
  · exact Follows.throw _
  · apply Follows.bind (onStack_follows _)
    intro arguments
    split
    · apply Follows.bind world_follows
      intro world
      dsimp only
      split
      · exact Follows.throw _
      · exact callWith_follows follows _ _
    · exact Follows.throw _

theorem getStatic_follows (follows : run.Follows relation) (current : ClassId)
    (index : UInt16) : Follows Frame.machine relation (getStatic run current index) := by
  apply Follows.bind (fieldAt_follows current index true)
  intro slot
  apply Follows.bind (onMachine_follows (readField_follows follows slot none))
  intro value
  exact onStack_follows _

theorem getField_follows (follows : run.Follows relation) (current : ClassId)
    (index : UInt16) : Follows Frame.machine relation (getField run current index) := by
  apply Follows.bind (fieldAt_follows current index false)
  intro slot
  apply Follows.bind (onStack_follows _)
  intro popped
  split
  · exact Follows.throw _
  next receiver =>
    apply Follows.bind (onMachine_follows (readField_follows follows slot (some receiver)))
    intro value
    exact onStack_follows _

theorem newInstance_follows (follows : run.Follows relation) (current : ClassId)
    (index : UInt16) : Follows Frame.machine relation (newInstance run current index) := by
  apply Follows.bind (onWorld_follows (World.resolveClass_working current index))
  intro id
  apply Follows.bind world_follows
  intro world
  dsimp only
  split
  · exact Follows.throw _
  · apply Follows.bind (onMachine_follows (follows.initializes id))
    intro _
    apply Follows.bind (onWorld_follows (World.allocateInstance_evolving id _).working)
    intro object
    exact onStack_follows _

/-- Instructions that store neither in fields nor in reference arrays follow the relation. -/
theorem execute_follows (follows : run.Follows relation) (current : ClassId)
    {instruction : Instruction} (spares : ¬ instruction.Stores) :
    Follows Frame.machine relation (execute run current instruction) := by
  cases instruction with
  | newarray number => exact newPrimitiveArray_follows number
  | arraylength => exact arrayLength_follows
  | arrayLoad type => exact loadElement_follows type
  | arrayStore type => exact storeElement_follows type
  | aaload => exact loadReference_follows
  | aastore => exact absurd trivial spares
  | getstatic index => exact getStatic_follows follows current index
  | putstatic index => exact absurd trivial spares
  | getfield index => exact getField_follows follows current index
  | putfield index => exact absurd trivial spares
  | new index => exact newInstance_follows follows current index
  | anewarray index => exact newReferenceArray_follows current index
  | multianewarray index dimensions => exact newNestedArray_follows current index dimensions
  | invokespecial index => exact invokeSpecial_follows follows current index
  | invokestatic index => exact invokeStatic_follows follows current index
  | invokevirtual index => exact invokeDynamic_follows follows current index
  | invokeinterface index => exact invokeDynamic_follows follows current index
  | ldc index => exact loadConstant_follows current index
  | instanceof index => exact testInstance_follows current index
  | checkcast index => exact checkCast_follows current index

end FrameM

/-! ### Operations -/

theorem registerUsable_ends (loader : LoaderId) (id : ClassId) {world : World}
    (sound : world.Sound) :
    Ends (fun world later => world.Lasts later ∧ world.LeavesContents later) world
      (Operation.registerUsable loader id) fun _ _ => True := by
  apply Ends.bindGet
  split
  next usable => exact World.register_ends loader id sound usable
  next => exact .throw ⟨(World.Evolves.refl sound).toLasts, .refl world⟩

/-- Between two pieces of work there is no class to link. -/
theorem evolves_link {world : World} (sound : world.Sound) (atRest : world.AtRest) (id : ClassId) :
    world.Evolves (runFrom world (World.link id)).2 := by
  have refused : Ends World.Evolves world (World.link id) fun _ _ => True := by
    apply Ends.bindGet
    dsimp only
    split
    · exact .throw (.refl sound)
    · rw [if_pos (atRest id)]
      exact .throw (.refl sound)
  exact refused.leads

namespace Operation

/-- The operation may run methods of the client. -/
def runsMethods : Operation → Bool
  | initializeClass _ | construct _ | readField _ _ | writeField _ _ _ | execute _ _ _ | call _ _ =>
      true
  | _ => false

/-- The operation changes directories in other ways than by loading. -/
def Rebinds : Operation → Prop
  | shutDown | register _ _ => True
  | _ => False

/-- The operation stores a value in a field, or a reference in an array. -/
def Stores : Operation → Prop
  | putField _ _ _ | putStatic _ _ _ | writeField _ _ _ | putReference _ _ _ => True
  | execute _ instruction _ => instruction.Stores
  | _ => False

end Operation

omit [Trail relation] in
/-- Even where directories are interfered with, a world lasts and contents are left alone. -/
theorem rebind_follows (bears : Trail.Bears relation) {operation : Operation}
    (rebinds : operation.Rebinds) (machine : Machine Client) :
    relation machine (operation.perform run machine).2 := by
  cases operation with
  | shutDown =>
      exact bears machine _ fun sound _ => ⟨World.lasts_shutDown sound, .of_eq rfl rfl⟩
  | register loader type =>
      exact bears machine _ fun sound _ => (registerUsable_ends loader type sound).leads
  | _ => exact absurd rebinds id

omit [Trail relation] in
/-- An operation that runs no methods works on the world, unless it changes directories or
stores. -/
theorem perform_works {operation : Operation} (plain : operation.runsMethods = false)
    (rebinds : ¬ operation.Rebinds) (stores : ¬ operation.Stores) (run : Runner Client)
    (machine : Machine Client) (sound : machine.world.Sound) (atRest : machine.world.AtRest) :
    machine.world.Works (operation.perform run machine).2.world := by
  have working {α : Type} {action : WorldM α} (working : Working action) :
      machine.world.Works (Operation.onWorld action machine).2.world :=
    (working machine.world sound).leads
  cases operation with
  | bootstrap => exact working World.bootstrap_evolving.working
  | addLoader => exact ⟨World.develops_addLoader sound, .of_eq rfl rfl⟩
  | load loader name => exact working (World.load_finds.evolving loader name).working
  | require loader name => exact working (World.require_evolving loader name).working
  | link type => exact (evolves_link sound atRest type).toWorks
  | ensureMirror type => exact working (World.ensureMirror_evolving type).working
  | arrayClassOf component => exact working (World.arrayClassOf_evolving component).working
  | primitiveArrayClass type => exact working (World.primitiveArrayClass_evolving type).working
  | resolve type kind index => exact working (World.resolve_working type kind index)
  | intern text => exact working (World.intern_evolving text).working
  | allocateInstance type attachment =>
      exact working (World.allocateInstance_evolving type attachment).working
  | allocatePrimitives type length =>
      exact working (World.allocatePrimitives_evolving type length).working
  | allocateReferences type length =>
      exact working (World.allocateReferences_evolving type length).working
  | putElement array type index cell =>
      exact working (World.putElement_evolving array type index cell).working
  | shutDown | register => exact absurd trivial rebinds
  | putReference | putField | putStatic => exact absurd trivial stores
  | initializeClass | construct | readField | writeField | execute | call => cases plain

theorem perform_follows (follows : run.Follows relation) (operation : Operation)
    (machine : Machine Client)
    (rebinds : operation.Rebinds → relation machine (operation.perform run machine).2)
    (stores : operation.Stores → relation machine (operation.perform run machine).2) :
    relation machine (operation.perform run machine).2 := by
  by_cases rebinding : operation.Rebinds
  · exact rebinds rebinding
  by_cases storing : operation.Stores
  · exact stores storing
  have works (plain : operation.runsMethods = false) :
      relation machine { machine with world := (operation.perform run machine).2.world } :=
    Trail.work fun sound atRest => perform_works plain rebinding storing run machine sound atRest
  have frame {action : FrameM Client Unit} (stack : OperandStack)
      (follows : Follows Frame.machine relation action) :
      relation machine (Operation.onFrame action stack machine).2 :=
    follows.leads ⟨machine, stack⟩
  cases operation with
  | initializeClass type => exact (follows.initializes type).leads machine
  | construct object => exact (construct_follows follows object).leads machine
  | readField slot receiver => exact (readField_follows follows slot receiver).leads machine
  | writeField slot receiver value => exact absurd trivial storing
  | execute current instruction stack =>
      exact frame stack (FrameM.execute_follows follows current storing)
  | call method stack => exact frame stack (FrameM.call_follows follows method)
  | _ => exact works rfl

/-! ### Stores -/

section Stores

variable {relation : Machine Client → Machine Client → Prop} [Trail.Develops relation]

theorem Follows.of_develops {action : WorldM α}
    (develops : ∀ world : World, world.Sound → world.Develops (runFrom world action).2) :
    Follows Machine.self relation (MachineM.onWorld action : MachineM Client α) :=
  ⟨fun machine => Trail.Develops.develop fun sound _ => develops machine.world sound⟩

theorem writeField_follows (follows : run.Follows relation) (slot : Option FieldSlot)
    (receiver : Option ObjectId) (value : Value) :
    Follows Machine.self relation (writeField run slot receiver value) := by
  unfold writeField
  split
  · exact Follows.throw _
  · apply Follows.bind (follows.initializes _)
    intro _
    dsimp only
    split
    · exact Follows.of_develops fun _ => World.develops_putStatic _ _ _
    · exact Follows.of_develops fun _ => World.develops_putField _ _ _
    · exact Follows.throw _
    · exact Follows.throw _

namespace FrameM

theorem putStatic_follows (follows : run.Follows relation) (current : ClassId)
    (index : UInt16) : Follows Frame.machine relation (putStatic run current index) := by
  apply Follows.bind (fieldAt_follows current index true)
  intro slot
  apply Follows.bind (onStack_follows _)
  intro value
  exact onMachine_follows (writeField_follows follows slot none value)

theorem putField_follows (follows : run.Follows relation) (current : ClassId)
    (index : UInt16) : Follows Frame.machine relation (putField run current index) := by
  apply Follows.bind (fieldAt_follows current index false)
  intro slot
  apply Follows.bind (onStack_follows _)
  intro value
  apply Follows.bind (onStack_follows _)
  intro popped
  split
  · exact Follows.throw _
  next receiver =>
    exact onMachine_follows (writeField_follows follows slot (some receiver) value)

end FrameM

namespace FrameM

theorem storeReference_follows :
    Follows Frame.machine relation (storeReference : FrameM Client Unit) := by
  apply Follows.bind (onStack_follows _)
  intro element
  apply Follows.bind (onStack_follows _)
  intro index
  apply Follows.bind popArray_follows
  intro array
  apply Follows.bind world_follows
  intro world
  apply Follows.bind (Follows.ofExcept _)
  intro _
  exact onMachine_follows (Follows.of_develops fun _ =>
    World.develops_putReference array index element)

end FrameM

/-- What holds wherever a world develops holds along stores as well. -/
theorem store_follows (follows : run.Follows relation) {operation : Operation}
    (stores : operation.Stores) (machine : Machine Client) :
    relation machine (operation.perform run machine).2 := by
  cases operation with
  | putField object slot value =>
      exact (Follows.of_develops fun _ => World.develops_putField object slot value).leads machine
  | putStatic type slot value =>
      exact (Follows.of_develops fun _ => World.develops_putStatic type slot value).leads machine
  | writeField slot receiver value =>
      exact (writeField_follows follows slot receiver value).leads machine
  | putReference array index element =>
      exact (Follows.of_develops fun _ =>
        World.develops_putReference array index element).leads machine
  | execute current instruction stack =>
      cases instruction with
      | putstatic index =>
          exact (FrameM.putStatic_follows follows current index).leads ⟨machine, stack⟩
      | putfield index =>
          exact (FrameM.putField_follows follows current index).leads ⟨machine, stack⟩
      | aastore => exact FrameM.storeReference_follows.leads ⟨machine, stack⟩
      | _ => exact absurd stores id
  | _ => exact absurd stores id

end Stores

/-! ### Programs and callbacks -/

section Programs

variable {relation : World → World → Prop} [Course relation]

/-- The program asks for allowed operations only, whatever the answers are. -/
def Program.Abides (allowed : Operation → Prop) : Program Client α → Prop
  | .done _ => True
  | .inspect next => ∀ machine, (next machine).Abides allowed
  | .store _ next => next.Abides allowed
  | .perform operation next => allowed operation ∧ ∀ answer, (next answer).Abides allowed

theorem Program.Abides.mono {allowed others : Operation → Prop} {program : Program Client α}
    (abides : program.Abides allowed)
    (implies : ∀ operation, allowed operation → others operation) : program.Abides others := by
  induction program with
  | done result => trivial
  | inspect next inductionHypothesis =>
      exact fun machine => inductionHypothesis machine (abides machine)
  | store client next inductionHypothesis => exact inductionHypothesis abides
  | perform operation next inductionHypothesis =>
      exact ⟨implies operation abides.1, fun answer =>
        inductionHypothesis answer (abides.2 answer)⟩

theorem Program.abides_of_forall {allowed : Operation → Prop} (all : ∀ operation, allowed operation)
    (program : Program Client α) : program.Abides allowed := by
  induction program with
  | done result => trivial
  | inspect next inductionHypothesis => exact inductionHypothesis
  | store client next inductionHypothesis => exact inductionHypothesis
  | perform operation next inductionHypothesis => exact ⟨all operation, inductionHypothesis⟩

/-- What holds along every operation that a program may ask for holds along the program. -/
theorem run_follows (follows : run.Follows (Along relation)) {program : Program Client α}
    (abides : program.Abides fun operation => operation.Rebinds → Course.Bears relation)
    (machine : Machine Client) :
    relation machine.world (program.run run machine).2.world := by
  induction program generalizing machine with
  | done result => exact (Trail.refl machine : Along relation machine machine)
  | inspect next inductionHypothesis => exact inductionHypothesis machine (abides machine) machine
  | store client next inductionHypothesis =>
      exact inductionHypothesis abides { machine with client }
  | perform operation next inductionHypothesis =>
      have first := perform_follows follows operation machine
        (fun rebinds => rebind_follows (abides.1 rebinds).along rebinds machine)
        fun stores => store_follows follows stores machine
      have rest := inductionHypothesis (operation.perform run machine).1 (abides.2 _)
        (operation.perform run machine).2
      exact Course.trans first rest

/-- Methods that are run by a client follow the relation if initializations do whenever methods do,
however deep the calls are nested. -/
theorem runner_follows
    (initializing : ∀ run : Runner Client,
      (∀ method arguments, Follows Machine.self (Along relation) (run method arguments)) →
        ∀ id, Follows Machine.self (Along relation) (initializeClass run id))
    {callback : Callback Client} (abides : ∀ method arguments, (callback method arguments).Abides
      fun operation => operation.Rebinds → Course.Bears relation)
    (depth : Nat) : (callback.runner depth).Follows (Along relation) := by
  induction depth with
  | zero =>
      have runs : ∀ method arguments,
          Follows Machine.self (Along relation) (callback.runner 0 method arguments) :=
        fun _ _ => Follows.throw _
      exact ⟨runs, initializing _ runs⟩
  | succ depth inductionHypothesis =>
      have runs : ∀ method arguments,
          Follows Machine.self (Along relation) (callback.runner (depth + 1) method arguments) :=
        fun method arguments => ⟨run_follows inductionHypothesis (abides method arguments)⟩
      exact ⟨runs, initializing _ runs⟩

end Programs
end JavaMachine
