import JavaMachine.Proofs.Access
import JavaMachine.Proofs.Selection
import JavaMachine.Proofs.Session

/-!
# The discipline of instructions

Every instruction takes its operands off the stack and puts its results in their place. What these
are is told by the instruction itself, or by the field, the method or the constant to which it
refers.
-/

namespace JavaMachine

variable {Client α : Type} {run : Runner Client}

/-- What an instruction takes off the stack, the top first, and what it puts in its place. -/
structure StackEffect where
  operands : List Shape
  results : List Shape
  deriving DecidableEq, Repr

/-- The instruction is a call that selects a method by the class of the receiver. -/
def Instruction.IsDynamic : Instruction → Prop
  | invokevirtual _ | invokeinterface _ => True
  | _ => False

/-- The effect of an instruction within a class; none if it refers to nothing that is there. -/
def Instruction.effect? (current : ClassId) (frame : Frame Client) :
    Instruction → Option StackEffect
  | newarray _ | anewarray _ => some ⟨[.int], [.reference]⟩
  | arraylength => some ⟨[.reference], [.int]⟩
  | arrayLoad type => some ⟨[.int, .reference], [type.shape]⟩
  | arrayStore type => some ⟨[type.shape, .int, .reference], []⟩
  | aaload => some ⟨[.int, .reference], [.reference]⟩
  | aastore => some ⟨[.reference, .int, .reference], []⟩
  | getstatic index => (field index true).map fun slot => ⟨[], [slot.field.shape]⟩
  | putstatic index => (field index true).map fun slot => ⟨[slot.field.shape], []⟩
  | getfield index => (field index false).map fun slot => ⟨[.reference], [slot.field.shape]⟩
  | putfield index => (field index false).map fun slot => ⟨[slot.field.shape, .reference], []⟩
  | new _ => some ⟨[], [.reference]⟩
  | multianewarray _ dimensions => some ⟨List.replicate dimensions.toNat .int, [.reference]⟩
  | invokespecial index | invokestatic index | invokevirtual index | invokeinterface index =>
      (method index).map fun method => ⟨method.operands, method.results⟩
  | ldc index => (frame.machine.world.tagAt current index).toOption.bind fun tag =>
      tag.shape?.map fun shape => ⟨[], [shape]⟩
  | instanceof _ => some ⟨[.reference], [.int]⟩
  | checkcast _ => some ⟨[.reference], [.reference]⟩
where
  /-- The field to which a constant leads. -/
  field (index : UInt16) (static : Bool) : Option FieldSlot :=
    (runFrom frame (FrameM.fieldAt current index static)).1.toOption
  /-- The method to which a constant leads. -/
  method (index : UInt16) : Option Method :=
    (runFrom frame (FrameM.methodAt current index)).1.toOption

/-! ### Values that are read and written -/

/-- What is read of a field fits its type. -/
theorem readField_fits {machine later : Machine Client} {slot : FieldSlot}
    {receiver : Option ObjectId} {value : Value}
    (reads : runFrom machine (readField run (some slot) receiver) = (.ok value, later)) :
    value.fits slot.field.valueType := by
  obtain ⟨_, middle, _, reads⟩ := exists_of_bind_ok reads
  obtain ⟨world, _, _, reads⟩ := exists_of_bind_ok reads
  split at reads
  · exact (World.getStatic_eq_ok.1 (ok_of_ofExcept reads).1).2.2
  · obtain ⟨_, _, _, fits⟩ := Object.getField_eq_ok.1 (ok_of_ofExcept reads).1
    exact fits
  · cases reads
  · cases reads

theorem ok_of_onWorld_change {machine later : Machine Client}
    {attempt : World → Except Error World} {result : Unit}
    (changes : runFrom machine (MachineM.onWorld (World.change attempt)) = (.ok result, later)) :
    attempt machine.world = .ok later.world := by
  cases attempted : attempt machine.world with
  | error error =>
      rw [runFrom_onWorld (World.runFrom_change_error attempted)] at changes
      cases changes
  | ok world =>
      rw [runFrom_onWorld (World.runFrom_change_ok attempted)] at changes
      cases changes
      rfl

/-- What is written into a field fits its type. -/
theorem writeField_fits {machine later : Machine Client} {slot : FieldSlot}
    {receiver : Option ObjectId} {value : Value} {result : Unit}
    (writes : runFrom machine (writeField run (some slot) receiver value) = (.ok result, later)) :
    value.fits slot.field.valueType := by
  obtain ⟨_, middle, _, writes⟩ := exists_of_bind_ok writes
  split at writes
  · have fits := (World.putStatic_eq_ok.1 (ok_of_onWorld_change writes)).1
    rwa [Value.fits_narrow] at fits
  · obtain ⟨_, put, _⟩ := World.stored_of_map (ok_of_onWorld_change writes)
    have fits := (Object.putField_eq_ok.1 put).1
    rwa [Value.fits_narrow] at fits
  · cases writes
  · cases writes

/-- From a frame on the computation has the effect on the stack. If it has none it fails and leaves
the stack as it is. -/
structure Disciplined (effect : Option StackEffect) (action : FrameM Client Unit)
    (frame : Frame Client) : Prop where
  exchanges : ∀ known, effect = some known →
    Exchanges Frame.stack known.operands known.results action frame
  fails : effect = none → ∃ error later,
    runFrom frame action = (.error error, later) ∧ later.stack = frame.stack

namespace Disciplined

variable {frame : Frame Client}

theorem of_exchanges {effect : StackEffect} {action : FrameM Client Unit}
    (exchanges : Exchanges Frame.stack effect.operands effect.results action frame) :
    Disciplined (some effect) action frame where
  exchanges known same := by
    cases same
    exact exchanges
  fails := nofun

/-- The effect shows in the outcome of a first step that leaves the stack alone. -/
theorem of_first {first : FrameM Client α} {next : α → FrameM Client Unit}
    {effect : α → StackEffect} (leaves : Exchanges Frame.stack [] [] first frame)
    (rest : ∀ result later, runFrom frame first = (.ok result, later) →
      Exchanges Frame.stack (effect result).operands (effect result).results (next result) later) :
    Disciplined ((runFrom frame first).1.toOption.map effect) (first >>= next) frame := by
  have same := leaves.same
  rcases ends : runFrom frame first with ⟨error | result, later⟩
  · rw [ends] at same
    exact ⟨nofun, fun _ => ⟨error, later, runFrom_bind_error ends, same⟩⟩
  · exact of_exchanges (leaves.bind fun other last endsToo => by
      rw [ends] at endsToo
      cases endsToo
      exact rest result later ends)

end Disciplined

namespace FrameM

variable {frame : Frame Client} {operands results : List Shape}

/-! ### Parts of instructions -/

theorem onStack_exchanges {action : StackM α}
    (exchanges : Exchanges (fun stack => stack) operands results action frame.stack) :
    Exchanges Frame.stack operands results (onStack action) frame where
  ok result later ends := exchanges.ok result later.stack (onStack_ends.1 ends).1
  error error later ends := exchanges.error error later.stack (onStack_ends.1 ends).1

/-- A value is popped whose shape shows only later. -/
theorem pop_exchanges {shape : Shape} {next : Value → FrameM Client α}
    (rest : ∀ value later, Exchanges Frame.stack operands results (next value) later ∧
      ∀ result last, runFrom later (next value) = (.ok result, last) → value.shape = shape) :
    Exchanges Frame.stack (shape :: operands) results (onStack OperandStack.pop >>= next) frame :=
  .bindValue (fun _ _ ends => OperandStack.runFrom_pop_ok (onStack_ends.1 ends).1)
    (fun _ _ ends => OperandStack.runFrom_pop_error (onStack_ends.1 ends).1)
    fun value later _ => rest value later

theorem onMachine_exchanges (action : MachineM Client α) :
    Exchanges Frame.stack [] [] (onMachine action) frame :=
  .of_same rfl

theorem onWorld_exchanges (action : WorldM α) :
    Exchanges Frame.stack [] [] (onWorld action : FrameM Client α) frame :=
  .of_same rfl

theorem world_exchanges : Exchanges Frame.stack [] [] (world : FrameM Client World) frame :=
  .of_same rfl

theorem push_exchanges {value : Value} {shape : Shape} (same : value.shape = shape) :
    Exchanges Frame.stack [] [shape] (onStack (OperandStack.push value) : FrameM Client Unit)
      frame := by
  rw [← same]
  exact onStack_exchanges (OperandStack.push_exchanges value)

/-! ### Instructions on arrays -/

theorem popArray_exchanges :
    Exchanges Frame.stack [.reference] [] (popArray : FrameM Client ObjectId) frame := by
  refine (onStack_exchanges OperandStack.popReference_exchanges).bind fun popped later _ => ?_
  split
  · exact .pure _
  · exact .throw _

theorem loadElement_exchanges (type : CellType) :
    Exchanges Frame.stack [.int, .reference] [type.shape]
      (loadElement type : FrameM Client Unit) frame := by
  refine (onStack_exchanges OperandStack.popInt_exchanges).bind fun index _ _ => ?_
  refine popArray_exchanges.bind fun array _ _ => ?_
  refine world_exchanges.bind fun world _ _ => ?_
  refine (Exchanges.ofExcept _).bind fun cell _ _ => ?_
  exact push_exchanges (OperandStack.shape_ofCell type cell)

theorem storeElement_exchanges (type : CellType) :
    Exchanges Frame.stack [type.shape, .int, .reference] []
      (storeElement type : FrameM Client Unit) frame := by
  refine (onStack_exchanges (OperandStack.popCell_exchanges type)).bind fun cell _ _ => ?_
  refine (onStack_exchanges OperandStack.popInt_exchanges).bind fun index _ _ => ?_
  exact popArray_exchanges.bind fun array _ _ => onWorld_exchanges _

theorem loadReference_exchanges :
    Exchanges Frame.stack [.int, .reference] [.reference]
      (loadReference : FrameM Client Unit) frame := by
  refine (onStack_exchanges OperandStack.popInt_exchanges).bind fun index _ _ => ?_
  refine popArray_exchanges.bind fun array _ _ => ?_
  refine world_exchanges.bind fun world _ _ => ?_
  refine (Exchanges.ofExcept _).bind fun element _ _ => ?_
  exact push_exchanges rfl

theorem storeReference_exchanges :
    Exchanges Frame.stack [.reference, .int, .reference] []
      (storeReference : FrameM Client Unit) frame := by
  refine (onStack_exchanges OperandStack.popReference_exchanges).bind fun element _ _ => ?_
  refine (onStack_exchanges OperandStack.popInt_exchanges).bind fun index _ _ => ?_
  refine popArray_exchanges.bind fun array _ _ => ?_
  refine world_exchanges.bind fun world _ _ => ?_
  refine (Exchanges.ofExcept _).bind fun _ _ _ => ?_
  exact onWorld_exchanges _

theorem arrayLength_exchanges :
    Exchanges Frame.stack [.reference] [.int] (arrayLength : FrameM Client Unit) frame := by
  refine (onStack_exchanges OperandStack.popReference_exchanges).bind fun popped _ _ => ?_
  split
  · exact .throw _
  · refine world_exchanges.bind fun world _ _ => ?_
    split
    · exact push_exchanges rfl
    · exact .throw _

theorem popLength_exchanges :
    Exchanges Frame.stack [.int] [] (popLength : FrameM Client Nat) frame := by
  refine (onStack_exchanges OperandStack.popInt_exchanges).bind fun popped _ _ => ?_
  split
  · exact .pure _
  · exact .throw _

theorem newPrimitiveArray_exchanges (number : Int32) :
    Exchanges Frame.stack [.int] [.reference]
      (newPrimitiveArray number : FrameM Client Unit) frame := by
  refine popLength_exchanges.bind fun length _ _ => ?_
  split
  · exact .throw _
  · refine (onWorld_exchanges _).bind fun type _ _ => ?_
    refine (onWorld_exchanges _).bind fun array _ _ => ?_
    exact push_exchanges rfl

theorem newReferenceArray_exchanges (current : ClassId) (index : UInt16) :
    Exchanges Frame.stack [.int] [.reference]
      (newReferenceArray current index : FrameM Client Unit) frame := by
  refine popLength_exchanges.bind fun length _ _ => ?_
  refine (onWorld_exchanges _).bind fun component _ _ => ?_
  refine (onWorld_exchanges _).bind fun type _ _ => ?_
  refine (onWorld_exchanges _).bind fun array _ _ => ?_
  exact push_exchanges rfl

theorem popInts_exchanges (count : Nat) (popped : List Int32) :
    Exchanges Frame.stack (List.replicate count .int) []
      (popInts count popped : FrameM Client (List Int32)) frame := by
  induction count generalizing popped frame with
  | zero => exact .pure popped
  | succ count inductionHypothesis =>
      exact (onStack_exchanges OperandStack.popInt_exchanges).bind fun value _ _ =>
        inductionHypothesis (value :: popped)

theorem newNestedArray_exchanges (current : ClassId) (index : UInt16) (dimensions : UInt8) :
    Exchanges Frame.stack (List.replicate dimensions.toNat .int) [.reference]
      (newNestedArray current index dimensions : FrameM Client Unit) frame := by
  refine (onWorld_exchanges _).bind fun id _ _ => ?_
  refine world_exchanges.bind fun world _ _ => ?_
  dsimp only
  split
  · exact .throw _
  · refine (popInts_exchanges dimensions.toNat []).bindGiving fun ints _ _ => ?_
    split
    · exact .throw _
    · refine (onWorld_exchanges _).bind fun array _ _ => ?_
      exact push_exchanges rfl

/-! ### Instructions on classes -/

theorem newInstance_exchanges (current : ClassId) (index : UInt16) :
    Exchanges Frame.stack [] [.reference] (newInstance run current index) frame := by
  refine (onWorld_exchanges _).bind fun id _ _ => ?_
  refine world_exchanges.bind fun world _ _ => ?_
  dsimp only
  split
  · exact .throw _
  · refine (onMachine_exchanges _).bind fun _ _ _ => ?_
    refine (onWorld_exchanges _).bind fun object _ _ => ?_
    exact push_exchanges rfl

theorem testInstance_exchanges (current : ClassId) (index : UInt16) :
    Exchanges Frame.stack [.reference] [.int]
      (testInstance current index : FrameM Client Unit) frame := by
  refine (onStack_exchanges OperandStack.popReference_exchanges).bind fun popped _ _ => ?_
  split
  · exact push_exchanges rfl
  · refine (onWorld_exchanges _).bind fun target _ _ => ?_
    refine world_exchanges.bind fun world _ _ => ?_
    exact push_exchanges rfl

theorem checkCast_exchanges (current : ClassId) (index : UInt16) :
    Exchanges Frame.stack [.reference] [.reference]
      (checkCast current index : FrameM Client Unit) frame := by
  refine (onStack_exchanges OperandStack.popReference_exchanges).bind fun popped _ _ => ?_
  split
  · exact push_exchanges rfl
  · refine (onWorld_exchanges _).bind fun target _ _ => ?_
    refine world_exchanges.bind fun world _ _ => ?_
    split
    · exact push_exchanges rfl
    · exact .throw _

/-- The value of a constant is found without the stack, and is kept as the tag says. -/
theorem constantValue_exchanges (current : ClassId) (index : UInt16) (tag : ConstantTag) :
    Exchanges Frame.stack [] [] (constantValue current index tag : FrameM Client Value) frame := by
  unfold constantValue
  split
  · exact (onWorld_exchanges _).map
  · exact (onWorld_exchanges _).map
  · exact (onWorld_exchanges _).map
  · exact (onWorld_exchanges _).map
  · exact (onWorld_exchanges _).bind fun object _ _ => .pure _
  · refine (onWorld_exchanges _).bind fun id _ _ => ?_
    refine (onWorld_exchanges _).bind fun _ _ _ => ?_
    refine world_exchanges.bind fun world _ _ => ?_
    dsimp only
    split
    · exact .pure _
    · exact .throw _
  · exact .throw _

theorem shape_constantValue {current : ClassId} {index : UInt16} {tag : ConstantTag}
    {value : Value} {later : Frame Client}
    (found : runFrom frame (constantValue current index tag) = (.ok value, later)) :
    tag.shape? = some value.shape := by
  unfold constantValue at found
  split at found
  · obtain ⟨_, _, _, found⟩ := exists_of_bind_ok found
    cases found
    rfl
  · obtain ⟨_, _, _, found⟩ := exists_of_bind_ok found
    cases found
    rfl
  · obtain ⟨_, _, _, found⟩ := exists_of_bind_ok found
    cases found
    rfl
  · obtain ⟨_, _, _, found⟩ := exists_of_bind_ok found
    cases found
    rfl
  · obtain ⟨_, _, _, found⟩ := exists_of_bind_ok found
    cases found
    rfl
  · obtain ⟨_, _, _, found⟩ := exists_of_bind_ok found
    obtain ⟨_, _, _, found⟩ := exists_of_bind_ok found
    obtain ⟨_, _, _, found⟩ := exists_of_bind_ok found
    dsimp only at found
    split at found
    · cases found
      rfl
    · cases found
  · cases found

theorem loadConstant_disciplined (current : ClassId) (index : UInt16) :
    Disciplined ((frame.machine.world.tagAt current index).toOption.bind fun tag =>
      tag.shape?.map fun shape => ⟨[], [shape]⟩) (loadConstant current index) frame := by
  have reads : runFrom frame world = (.ok frame.machine.world, frame) := rfl
  cases known : frame.machine.world.tagAt current index with
  | error error =>
      refine ⟨nofun, fun _ => ⟨error, frame, ?_, rfl⟩⟩
      rw [loadConstant, runFrom_bind_ok reads, known]
      rfl
  | ok tag =>
      have goesOn := runFrom_loadConstant known
      cases kept : tag.shape? with
      | none =>
          refine ⟨by simp [Except.toOption, kept], fun _ => ?_⟩
          refine ⟨.internal (.notLoadable tag index), frame, goesOn.trans ?_, rfl⟩
          cases tag <;> first | rfl | cases kept
      | some shape =>
          rw [show (Except.ok (ε := Error) tag).toOption = some tag from rfl, Option.bind_some,
            kept, Option.map_some]
          apply Disciplined.of_exchanges
          refine .of_run ?_ goesOn
          refine (constantValue_exchanges current index tag).bind fun value _ found => ?_
          have same := shape_constantValue found
          rw [kept] at same
          exact push_exchanges (Option.some_inj.1 same).symm

/-! ### Instructions on fields -/

theorem fieldAt_exchanges (current : ClassId) (index : UInt16) (static : Bool) :
    Exchanges Frame.stack [] [] (fieldAt current index static : FrameM Client FieldSlot) frame := by
  refine (onWorld_exchanges _).bind fun found _ _ => ?_
  split
  · exact .throw _
  · split
    · exact .pure _
    · split
      · exact .throw _
      · exact .throw _

theorem getStatic_disciplined (current : ClassId) (index : UInt16) :
    Disciplined (((runFrom frame (fieldAt current index true)).1.toOption).map fun slot =>
      ⟨[], [slot.field.shape]⟩) (getStatic run current index) frame := by
  refine .of_first (fieldAt_exchanges current index true) fun slot _ _ => ?_
  refine (onMachine_exchanges _).bind fun value _ reads => ?_
  exact push_exchanges (Value.fits_valueType.1 (readField_fits (onMachine_ends.1 reads).1))

theorem getField_disciplined (current : ClassId) (index : UInt16) :
    Disciplined (((runFrom frame (fieldAt current index false)).1.toOption).map fun slot =>
      ⟨[.reference], [slot.field.shape]⟩) (getField run current index) frame := by
  refine .of_first (fieldAt_exchanges current index false) fun slot _ _ => ?_
  refine (onStack_exchanges OperandStack.popReference_exchanges).bind fun popped _ _ => ?_
  split
  · exact .throw _
  · refine (onMachine_exchanges _).bind fun value _ reads => ?_
    exact push_exchanges (Value.fits_valueType.1 (readField_fits (onMachine_ends.1 reads).1))

theorem putStatic_disciplined (current : ClassId) (index : UInt16) :
    Disciplined (((runFrom frame (fieldAt current index true)).1.toOption).map fun slot =>
      ⟨[slot.field.shape], []⟩) (putStatic run current index) frame := by
  refine .of_first (fieldAt_exchanges current index true) fun slot _ _ => ?_
  refine pop_exchanges fun value _ => ⟨onMachine_exchanges _, ?_⟩
  exact fun _ _ writes => Value.fits_valueType.1 (writeField_fits (onMachine_ends.1 writes).1)

theorem putField_disciplined (current : ClassId) (index : UInt16) :
    Disciplined (((runFrom frame (fieldAt current index false)).1.toOption).map fun slot =>
      ⟨[slot.field.shape, .reference], []⟩) (putField run current index) frame := by
  refine .of_first (fieldAt_exchanges current index false) fun slot _ _ => ?_
  refine pop_exchanges fun value _ => ⟨?_, ?_⟩
  · refine (onStack_exchanges OperandStack.popReference_exchanges).bindGiving fun popped _ _ => ?_
    split
    · exact .throw _
    · exact onMachine_exchanges _
  · intro _ _ writes
    obtain ⟨popped, _, _, writes⟩ := exists_of_bind_ok writes
    cases popped with
    | none => cases writes
    | some receiver =>
        exact Value.fits_valueType.1 (writeField_fits (onMachine_ends.1 writes).1)

/-! ### Calls -/

theorem methodAt_exchanges (current : ClassId) (index : UInt16) :
    Exchanges Frame.stack [] [] (methodAt current index : FrameM Client Method) frame := by
  refine world_exchanges.bind fun world _ _ => ?_
  refine (Exchanges.ofExcept _).bind fun tag _ _ => ?_
  refine (onWorld_exchanges _).bind fun found _ _ => ?_
  split
  · exact .pure _
  · exact .throw _

theorem callWith_exchanges (method : Method) (arguments : List Value) :
    Exchanges Frame.stack [] method.results (callWith run method arguments) frame :=
  (onMachine_exchanges _).bind fun returned _ _ =>
    onStack_exchanges (OperandStack.pushResult_exchanges method returned)

theorem call_exchanges (method : Method) :
    Exchanges Frame.stack method.operands method.results (call run method) frame :=
  (onStack_exchanges (OperandStack.popArguments_exchanges method)).bindGiving fun arguments _ _ =>
    callWith_exchanges method arguments

theorem invokeSpecial_disciplined (current : ClassId) (index : UInt16) :
    Disciplined (((runFrom frame (methodAt current index)).1.toOption).map fun method =>
      ⟨method.operands, method.results⟩) (invokeSpecial run current index) frame := by
  refine .of_first (methodAt_exchanges current index) fun method _ _ => ?_
  split
  · exact .throw _
  · split
    · exact .throw _
    · exact call_exchanges method

theorem invokeStatic_disciplined (current : ClassId) (index : UInt16) :
    Disciplined (((runFrom frame (methodAt current index)).1.toOption).map fun method =>
      ⟨method.operands, method.results⟩) (invokeStatic run current index) frame := by
  refine .of_first (methodAt_exchanges current index) fun method _ _ => ?_
  split
  · exact .throw _
  · exact (onMachine_exchanges _).bind fun _ _ _ => call_exchanges method

/-- What is selected gives back what the method that is referred to does. -/
theorem invokeDynamic_disciplined (clean : frame.machine.world.Clean) (current : ClassId)
    (index : UInt16) :
    Disciplined (((runFrom frame (methodAt current index)).1.toOption).map fun method =>
      ⟨method.operands, method.results⟩) (invokeDynamic run current index) frame := by
  refine .of_first (methodAt_exchanges current index) fun resolved later resolves => ?_
  obtain ⟨sound, id, declares⟩ := methodAt_declares clean resolves
  split
  · exact .throw _
  · refine (onStack_exchanges (OperandStack.popArguments_exchanges resolved)).bindGiving
      fun arguments last pops => ?_
    have same := (onStack_ends.1 pops).2
    split
    next receiver _ =>
      refine world_exchanges.bind fun world _ reads => ?_
      cases reads
      dsimp only
      split
      · exact .throw _
      -- another method may run, but its key tells the same kind of result
      · rw [← sound.results_selectMethod declares (later.machine.world.object receiver).type,
          World.typeOf, same]
        exact callWith_exchanges _ _
    · exact .throw _

/-! ### All instructions -/

/-- Every instruction takes exactly its operands off the stack and puts exactly its results in their
place. Where it fails it has taken no more than its operands and put nothing there, and where there
is nothing to which it could refer it fails and leaves the stack alone. Which method runs on a call
does not matter to the caller's stack, nor does what it does. -/
theorem execute_disciplined (run : Runner Client) (current : ClassId) (instruction : Instruction)
    (frame : Frame Client) (met : instruction.IsDynamic → frame.machine.world.Met) :
    Disciplined (instruction.effect? current frame) (execute run current instruction) frame := by
  cases instruction with
  | newarray number => exact .of_exchanges (newPrimitiveArray_exchanges number)
  | arraylength => exact .of_exchanges arrayLength_exchanges
  | arrayLoad type => exact .of_exchanges (loadElement_exchanges type)
  | arrayStore type => exact .of_exchanges (storeElement_exchanges type)
  | aaload => exact .of_exchanges loadReference_exchanges
  | aastore => exact .of_exchanges storeReference_exchanges
  | getstatic index => exact getStatic_disciplined current index
  | putstatic index => exact putStatic_disciplined current index
  | getfield index => exact getField_disciplined current index
  | putfield index => exact putField_disciplined current index
  | new index => exact .of_exchanges (newInstance_exchanges current index)
  | anewarray index => exact .of_exchanges (newReferenceArray_exchanges current index)
  | multianewarray index dimensions =>
      exact .of_exchanges (newNestedArray_exchanges current index dimensions)
  | invokespecial index => exact invokeSpecial_disciplined current index
  | invokestatic index => exact invokeStatic_disciplined current index
  | invokevirtual index => exact invokeDynamic_disciplined (met trivial).clean current index
  | invokeinterface index => exact invokeDynamic_disciplined (met trivial).clean current index
  | ldc index => exact loadConstant_disciplined current index
  | instanceof index => exact .of_exchanges (testInstance_exchanges current index)
  | checkcast index => exact .of_exchanges (checkCast_exchanges current index)

end FrameM

/-! ### An overridden method -/

namespace Overriding

/-- The file of a class with a method `add` that takes a byte and a long and gives a short. -/
def file (name superclass : String) : ClassFile where
  minorVersion := 0
  majorVersion := 52
  pool := [.utf8 (Text.ModifiedUtf8.encode name), .classRef 1,
    .utf8 (Text.ModifiedUtf8.encode superclass), .classRef 3,
    .utf8 (Text.ModifiedUtf8.encode "add"), .utf8 (Text.ModifiedUtf8.encode "(BJ)S"),
    .nameAndType 5 6, .methodRef 2 7]
  flags := ⟨0x0021⟩
  thisClass := 2
  superClass := if superclass = "" then 0 else 4
  interfaces := []
  fields := []
  methods := [⟨⟨0x0001⟩, 5, 6, []⟩]
  attributes := []

/-- `Step` overrides the method of `Counter`. -/
def files : List (String × ClassFile) :=
  [("java/lang/Object", file "java/lang/Object" ""), ("Counter", file "Counter" "java/lang/Object"),
    ("Step", file "Step" "Counter")]

def step : ClassId := ⟨0⟩
def counter : ClassId := ⟨1⟩

/-- Loads `Step` and makes an instance. -/
def session : Session where
  callback _ _ := .done (.ok none)
  depth := 0
  program := do
    discard (Program.ask (.load .bootstrap "Step"))
    Program.ask (.allocateInstance step .none)
  sources := [.memory (files.foldl (fun classes (name, file) => classes.insert name file) {})]
  client := ()

theorem met : session.last.world.Met := ⟨session, session.last_mem_worlds⟩

/-- The operands of a call on the instance, above another value. -/
def frame : Frame Unit where
  machine := ⟨session.last.world, ()⟩
  stack := [.long 5, .int 300, .reference (some ⟨0⟩), .float 0]

theorem met_frame : frame.machine.world.Met := by
  simpa only [frame] using met

/-- Methods return their first argument after the receiver. -/
def runner : Runner Unit := fun _ arguments => pure arguments[1]?

end Overriding

set_option maxRecDepth 20000

/-- A call of the method of `Counter` on an instance of `Step` takes two numbers and the receiver
and puts a number in their place. -/
theorem FrameM.execute_disciplined_overriding :
    Overriding.frame.machine.world.Met ∧
      (Instruction.invokevirtual 8).effect? Overriding.counter Overriding.frame =
        some ⟨[.long, .int, .reference], [.int]⟩ ∧
      Disciplined ((Instruction.invokevirtual 8).effect? Overriding.counter Overriding.frame)
        (execute Overriding.runner Overriding.counter (.invokevirtual 8)) Overriding.frame :=
  ⟨Overriding.met_frame, by decide +kernel,
    execute_disciplined Overriding.runner Overriding.counter (.invokevirtual 8) Overriding.frame
      fun _ => Overriding.met_frame⟩

/-- The operand for the byte is narrowed. -/
example :
    let ended := runFrom Overriding.frame
      (FrameM.execute Overriding.runner Overriding.counter (.invokevirtual 8))
    ended.1.toOption = some () ∧ ended.2.stack = [.int 44, .float 0] := by
  decide +kernel

end JavaMachine
