import JavaMachine.Proofs.Discipline
import JavaMachine.Proofs.Provenance

/-!
# What a call passes on and gives back

A call is prepared without the method that it runs: the method is found and the arguments are taken
off the stack, each narrowed to the type of its parameter. Then the method runs, once, and what it
returns is put onto the stack.
-/

namespace JavaMachine

variable {Client : Type}

/-! ### Arguments -/

/-- Operands are passed as arguments: each fits the type of its parameter and is narrowed to it. -/
inductive Passes : List FieldType → List Value → List Value → Prop where
  | nil : Passes [] [] []
  | cons {type : FieldType} {types : List FieldType} {operand : Value}
      {operands arguments : List Value} (fits : operand.fits type.valueType)
      (rest : Passes types operands arguments) :
      Passes (type :: types) (operand :: operands) (operand.narrow type.valueType :: arguments)

theorem passes_concat {types : List FieldType} {type : FieldType}
    {operands arguments : List Value} :
    Passes (types ++ [type]) operands arguments ↔ ∃ others passed operand,
      operands = others ++ [operand] ∧ arguments = passed ++ [operand.narrow type.valueType] ∧
        Passes types others passed ∧ operand.fits type.valueType := by
  constructor
  · intro passes
    induction types generalizing operands arguments with
    | nil =>
        obtain _ | ⟨fits, rest⟩ := passes
        cases rest
        exact ⟨[], [], _, rfl, rfl, .nil, fits⟩
    | cons first types inductionHypothesis =>
        obtain _ | ⟨fitsFirst, rest⟩ := passes
        obtain ⟨others, passed, operand, rfl, rfl, passes, fits⟩ := inductionHypothesis rest
        exact ⟨_ :: others, _ :: passed, operand, rfl, rfl, .cons fitsFirst passes, fits⟩
  · rintro ⟨others, passed, operand, rfl, rfl, passes, fits⟩
    induction passes with
    | nil => exact .cons fits .nil
    | cons fitsFirst _ inductionHypothesis => exact .cons fitsFirst inductionHypothesis

/-- What is passed fits as well. -/
theorem Passes.fits {types : List FieldType} {operands arguments : List Value}
    (passes : Passes types operands arguments) :
    List.Forall₂ (fun type argument => argument.fits type.valueType) types arguments := by
  induction passes with
  | nil => exact .nil
  | cons fits _ inductionHypothesis =>
      exact .cons (by rw [Value.fits_narrow, fits]) inductionHypothesis

/-- The method takes its arguments off the stack `before` and leaves the stack `after`: the operands
for its parameters, the last one on top, and below them, of an instance method, the receiver. The
receiver is the first argument and is an object. -/
inductive Method.Takes (method : Method) : List Value → OperandStack → OperandStack → Prop where
  | ofStatic {operands arguments : List Value} {after : OperandStack} (isStatic : method.isStatic)
      (passes : Passes method.type.parameters operands arguments) :
      Takes method arguments (operands.reverse ++ after) after
  | ofInstance {operands arguments : List Value} {after : OperandStack} {receiver : ObjectId}
      (dynamic : ¬ method.isStatic)
      (passes : Passes method.type.parameters operands arguments) :
      Takes method (.reference (some receiver) :: arguments)
        (operands.reverse ++ .reference (some receiver) :: after) after

theorem Method.Takes.of_same {method other : Method} {arguments : List Value}
    {before after : OperandStack} (takes : method.Takes arguments before after)
    (type : other.type = method.type) (isStatic : other.isStatic = method.isStatic) :
    other.Takes arguments before after := by
  cases takes with
  | ofStatic known passes => exact .ofStatic (isStatic ▸ known) (type ▸ passes)
  | ofInstance dynamic passes => exact .ofInstance (isStatic ▸ dynamic) (type ▸ passes)

/-- An instance method has a receiver. -/
theorem Method.Takes.receiver {method : Method} {arguments : List Value}
    {before after : OperandStack} (takes : method.Takes arguments before after)
    (dynamic : ¬ method.isStatic) :
    ∃ receiver others, arguments = .reference (some receiver) :: others := by
  cases takes with
  | ofStatic isStatic => exact absurd isStatic dynamic
  | ofInstance _ _ => exact ⟨_, _, rfl⟩

/-- What a method returns is given back as it should be: nothing of a method without a result, and
else a value that fits, narrowed to the type of the result. -/
inductive Method.Gives (method : Method) : Option Value → OperandStack → Prop where
  | nothing (void : method.type.result = none) : Gives method none []
  | value {type : FieldType} {value : Value} (result : method.type.result = some type)
      (fits : value.fits type.valueType) : Gives method (some value) [value.narrow type.valueType]

namespace OperandStack

variable {stack later : OperandStack}

theorem popShape_eq_ok {shape : Shape} {value : Value} :
    runFrom stack (popShape shape) = (.ok value, later) ↔
      stack = value :: later ∧ value.shape = shape := by
  constructor
  · intro pops
    cases stack with
    | nil => cases shape <;> cases pops
    | cons top rest =>
        cases shape <;> cases top <;> cases pops <;> exact ⟨rfl, rfl⟩
  · rintro ⟨rfl, rfl⟩
    cases value <;> rfl

theorem popTyped_eq_ok {type : FieldType} {value : Value} :
    runFrom stack (popTyped type.valueType) = (.ok value, later) ↔ ∃ operand,
      stack = operand :: later ∧ operand.fits type.valueType ∧
        value = operand.narrow type.valueType := by
  rw [popTyped, type.shape?_valueType]
  constructor
  · intro pops
    obtain ⟨operand, _, popsShape, ends⟩ := exists_of_bind_ok pops
    cases ends
    obtain ⟨same, shape⟩ := popShape_eq_ok.1 popsShape
    exact ⟨operand, same, Value.fits_valueType.2 shape, rfl⟩
  · rintro ⟨operand, same, fits, rfl⟩
    have popsShape := popShape_eq_ok.2 ⟨same, Value.fits_valueType.1 fits⟩
    exact runFrom_bind_ok popsShape

theorem popTypedAll_eq_ok {reversed : List FieldType} {popped arguments : List Value} :
    runFrom stack (popTypedAll reversed popped) = (.ok arguments, later) ↔
      ∃ operands passed, Passes reversed.reverse operands passed ∧
        stack = operands.reverse ++ later ∧ arguments = passed ++ popped := by
  -- the last parameter lies on top, so its operand is the last of the operands
  induction reversed generalizing stack popped with
  | nil =>
      constructor
      · intro pops
        cases pops
        exact ⟨[], [], .nil, rfl, rfl⟩
      · rintro ⟨operands, passed, passes, rfl, rfl⟩
        cases passes
        rfl
  | cons type rest inductionHypothesis =>
      rw [List.reverse_cons]
      constructor
      · intro pops
        obtain ⟨value, middle, popsFirst, pops⟩ := exists_of_bind_ok pops
        obtain ⟨operand, rfl, fits, rfl⟩ := popTyped_eq_ok.1 popsFirst
        obtain ⟨operands, passed, passes, rfl, rfl⟩ := inductionHypothesis.1 pops
        refine ⟨operands ++ [operand], passed ++ [operand.narrow type.valueType],
          passes_concat.2 ⟨operands, passed, operand, rfl, rfl, passes, fits⟩, ?_, ?_⟩
        · simp
        · simp
      · rintro ⟨operands, passed, passes, rfl, rfl⟩
        obtain ⟨operands, passed, operand, rfl, rfl, passes, fits⟩ := passes_concat.1 passes
        have popsFirst : runFrom ((operands ++ [operand]).reverse ++ later)
            (popTyped type.valueType) =
              (.ok (operand.narrow type.valueType), operands.reverse ++ later) :=
          popTyped_eq_ok.2 ⟨operand, by simp, fits, rfl⟩
        rw [popTypedAll, runFrom_bind_ok popsFirst]
        exact inductionHypothesis.2 ⟨operands, passed, passes, rfl, by simp⟩

theorem popTypedAll_of_passes {types : List FieldType} {operands passed : List Value}
    (passes : Passes types operands passed) (after : OperandStack) :
    runFrom (operands.reverse ++ after) (popTypedAll types.reverse []) = (.ok passed, after) :=
  popTypedAll_eq_ok.2 ⟨operands, passed, by rwa [List.reverse_reverse], rfl, by simp⟩

/-- The arguments of a method are popped exactly where the method can take them. -/
theorem popArguments_eq_ok {method : Method} {arguments : List Value} :
    runFrom stack (popArguments method) = (.ok arguments, later) ↔
      method.Takes arguments stack later := by
  constructor
  · intro pops
    obtain ⟨passed, middle, popsParameters, pops⟩ := exists_of_bind_ok pops
    obtain ⟨operands, _, passes, rfl, rfl⟩ := popTypedAll_eq_ok.1 popsParameters
    rw [List.reverse_reverse] at passes
    rw [List.append_nil] at pops
    split at pops
    next isStatic =>
      cases pops
      exact .ofStatic isStatic passes
    next dynamic =>
      obtain ⟨reference, rest, popsReceiver, pops⟩ := exists_of_bind_ok pops
      cases reference with
      | none => cases pops
      | some receiver =>
          cases pops
          rw [popReference_ok popsReceiver]
          exact .ofInstance dynamic passes
  · intro takes
    cases takes with
    | ofStatic isStatic passes =>
        rw [popArguments, runFrom_bind_ok (popTypedAll_of_passes passes _), if_pos isStatic]
        rfl
    | ofInstance dynamic passes =>
        rw [popArguments, runFrom_bind_ok (popTypedAll_of_passes passes _), if_neg dynamic]
        rfl

/-- What is returned is pushed exactly where it is given back as it should be. -/
theorem pushResult_eq_ok {method : Method} {returned : Option Value} {result : Unit} :
    runFrom stack (pushResult method returned) = (.ok result, later) ↔ ∃ given,
      method.Gives returned given ∧ later = given ++ stack := by
  constructor
  · intro pushes
    cases returned with
    | none =>
        unfold pushResult at pushes
        rw [MethodType.resultType] at pushes
        cases known : method.type.result with
        | none =>
            rw [known] at pushes
            cases pushes
            exact ⟨[], .nothing known, rfl⟩
        | some type =>
            rw [known] at pushes
            cases type <;> cases pushes
    | some value =>
        cases known : method.type.result with
        | none =>
            unfold pushResult at pushes
            rw [MethodType.resultType, known] at pushes
            cases pushes
        | some type =>
            rw [pushResult_some known] at pushes
            split at pushes
            next fits =>
              cases pushes
              exact ⟨_, .value known fits, rfl⟩
            next => cases pushes
  · rintro ⟨given, gives, rfl⟩
    cases gives with
    | nothing void =>
        unfold pushResult
        rw [MethodType.resultType, void]
        rfl
    | value known fits =>
        rw [pushResult_some known, if_pos fits]
        rfl

end OperandStack

/-! ### Preparation -/

/-- The ways of calling a method. -/
inductive CallKind where
  | special | static | dynamic
  deriving DecidableEq, Repr

/-- The kind of a call and the constant to which it refers, of an instruction that calls. -/
def Instruction.call? : Instruction → Option (CallKind × UInt16)
  | invokespecial index => some (.special, index)
  | invokestatic index => some (.static, index)
  | invokevirtual index | invokeinterface index => some (.dynamic, index)
  | _ => none

/-- A method that is to run, and its arguments. -/
structure PreparedCall where
  method : Method
  arguments : List Value

namespace FrameM

/-- All that a call does before its method runs, given a way of initializing classes: the method is
found, and selected if the call is dynamic, and the arguments are taken off the stack. -/
def prepareCall (initializing : ClassId → MachineM Client Unit) (current : ClassId)
    (index : UInt16) : CallKind → FrameM Client PreparedCall
  | .special => do
      let method ← methodAt current index
      if method.isStatic then throw (.linkage (.instanceMethodExpected method.label))
      else if method.isAbstract then throw (.linkage (.abstractMethod method.label))
      else
        let arguments ← onStack (OperandStack.popArguments method)
        return ⟨method, arguments⟩
  | .static => do
      let method ← methodAt current index
      if !method.isStatic ∨ method.isAbstract then
        throw (.linkage (.staticMethodExpected method.label))
      else
        onMachine (initializing method.owner)
        let arguments ← onStack (OperandStack.popArguments method)
        return ⟨method, arguments⟩
  | .dynamic => do
      let resolved ← methodAt current index
      if resolved.isStatic then throw (.linkage (.instanceMethodExpected resolved.label))
      else
        let arguments ← onStack (OperandStack.popArguments resolved)
        match arguments with
        | .reference (some receiver) :: _ =>
            let selected := selectMethod ((← world).typeOf receiver) resolved
            if selected.isAbstract then throw (.linkage (.abstractMethod selected.label))
            else return ⟨selected, arguments⟩
        | _ => throw (.internal .noReceiver)

variable {run : Runner Client} {frame : Frame Client} {current : ClassId} {index : UInt16}

theorem invokeDynamic_eq_prepareCall :
    invokeDynamic run current index =
      (do
        let call ← prepareCall (initializeClass run) current index .dynamic
        callWith run call.method call.arguments) := by
  rw [invokeDynamic, prepareCall, bind_assoc]
  refine bind_congr fun resolved => ?_
  split
  · rfl
  · rw [bind_assoc]
    refine bind_congr fun arguments => ?_
    rcases arguments with _ | ⟨_ | _ | _ | _ | _ | receiver, rest⟩
    case cons.reference.some =>
      rw [bind_assoc]
      refine bind_congr fun world => ?_
      dsimp only
      split
      · rfl
      · rw [pure_bind]
    all_goals rfl

/-- A call is prepared, and then its method runs, once. -/
theorem execute_eq_prepareCall {instruction : Instruction} {kind : CallKind}
    (calls : instruction.call? = some (kind, index)) :
    execute run current instruction =
      (do
        let call ← prepareCall (initializeClass run) current index kind
        callWith run call.method call.arguments) := by
  cases instruction with
  | invokespecial index =>
      cases calls
      rw [execute, invokeSpecial, prepareCall, bind_assoc]
      refine bind_congr fun method => ?_
      split
      · rfl
      · split
        · rfl
        · simp only [call, bind_assoc, pure_bind]
  | invokestatic index =>
      cases calls
      rw [execute, invokeStatic, prepareCall, bind_assoc]
      refine bind_congr fun method => ?_
      split
      · rfl
      · simp only [call, bind_assoc, pure_bind]
  | invokevirtual index | invokeinterface index =>
      cases calls
      exact invokeDynamic_eq_prepareCall
  | _ => cases calls

/-- What a call that is prepared has come to: the method fits the kind of the call and what is
referred to, and its arguments are taken off the stack. -/
structure Prepares (kind : CallKind) (resolved : Method) (before after : OperandStack)
    (call : PreparedCall) : Prop where
  concrete : ¬ call.method.isAbstract
  isStatic : call.method.isStatic ↔ kind = .static
  name : call.method.name = resolved.name
  descriptor : call.method.descriptor = resolved.descriptor
  takes : resolved.Takes call.arguments before after
  passes : call.method.Takes call.arguments before after

/-- The method that a dynamic call selects takes what has been taken for the one referred to. -/
theorem Prepares.of_selected {world : World} {id : ClassId} {resolved : Method}
    {arguments : List Value} {before after : OperandStack} (sound : world.Sound)
    (plain : world.NamesWithoutBlanks) (declares : world.Declares id resolved)
    (dynamic : ¬ resolved.isStatic) (type : ClassId)
    (concrete : ¬ (selectMethod (world.type type) resolved).isAbstract)
    (takes : resolved.Takes arguments before after) :
    Prepares .dynamic resolved before after
      ⟨selectMethod (world.type type) resolved, arguments⟩ := by
  obtain ⟨name, descriptor, types⟩ := sound.selectMethod_same plain declares type
  obtain ⟨_, _, instanceToo⟩ := sound.selectMethod_spec declares type
  refine ⟨concrete, ?_, name, descriptor, takes, takes.of_same types ?_⟩
  · simpa using instanceToo dynamic
  · simp [dynamic, instanceToo dynamic]

theorem methodAt_stack {outcome : Except Error Method} {later : Frame Client}
    (resolves : runFrom frame (methodAt current index) = (outcome, later)) :
    later.stack = frame.stack := by
  have same := (methodAt_exchanges current index : Exchanges _ _ _ _ frame).same
  rwa [resolves] at same

/-- A call that is prepared from a clean world is as it should be, if names are without blanks. -/
theorem prepareCall_ok {initializing : ClassId → MachineM Client Unit} {kind : CallKind}
    {call : PreparedCall} {later : Frame Client} (clean : frame.machine.world.Clean)
    (prepares : runFrom frame (prepareCall initializing current index kind) = (.ok call, later)) :
    ∃ resolved middle, runFrom frame (methodAt current index) = (.ok resolved, middle) ∧
      (middle.machine.world.NamesWithoutBlanks →
        Prepares kind resolved frame.stack later.stack call) := by
  cases kind with
  | special =>
      obtain ⟨method, middle, resolves, prepares⟩ := exists_of_bind_ok prepares
      refine ⟨method, middle, resolves, fun _ => ?_⟩
      obtain ⟨dynamic, prepares⟩ := ok_of_guard prepares
      obtain ⟨concrete, prepares⟩ := ok_of_guard prepares
      obtain ⟨arguments, _, pops, prepares⟩ := exists_of_bind_ok prepares
      cases prepares
      have takes := OperandStack.popArguments_eq_ok.1 (onStack_ends.1 pops).1
      rw [methodAt_stack resolves] at takes
      exact ⟨concrete, by simpa using dynamic, rfl, rfl, takes, takes⟩
  | static =>
      obtain ⟨method, middle, resolves, prepares⟩ := exists_of_bind_ok prepares
      refine ⟨method, middle, resolves, fun _ => ?_⟩
      obtain ⟨fitting, prepares⟩ := ok_of_guard prepares
      simp only [Bool.not_eq_true', not_or, Bool.not_eq_false] at fitting
      obtain ⟨_, between, initializes, prepares⟩ := exists_of_bind_ok prepares
      obtain ⟨arguments, _, pops, prepares⟩ := exists_of_bind_ok prepares
      cases prepares
      have same := (onMachine_ends.1 initializes).2
      have takes := OperandStack.popArguments_eq_ok.1 (onStack_ends.1 pops).1
      rw [same, methodAt_stack resolves] at takes
      exact ⟨fitting.2, by simpa using fitting.1, rfl, rfl, takes, takes⟩
  | dynamic =>
      obtain ⟨resolved, middle, resolves, prepares⟩ := exists_of_bind_ok prepares
      refine ⟨resolved, middle, resolves, fun plain => ?_⟩
      obtain ⟨sound, id, declares⟩ := methodAt_declares clean resolves
      obtain ⟨dynamic, prepares⟩ := ok_of_guard prepares
      obtain ⟨arguments, between, pops, prepares⟩ := exists_of_bind_ok prepares
      have takes := OperandStack.popArguments_eq_ok.1 (onStack_ends.1 pops).1
      -- the receiver is known once its arguments are taken, and only then is a method selected
      obtain ⟨receiver, others, rfl⟩ := takes.receiver dynamic
      obtain ⟨_, _, reads, prepares⟩ := exists_of_bind_ok prepares
      cases reads
      obtain ⟨concrete, prepares⟩ := ok_of_guard prepares
      cases prepares
      rw [(onStack_ends.1 pops).2] at concrete ⊢
      rw [methodAt_stack resolves] at takes
      exact .of_selected sound plain declares dynamic _ concrete takes

/-- After its method has returned, a call succeeds exactly if what is returned is given back as it
should be. -/
theorem callWith_eq_ok {method : Method} {arguments : List Value} {result : Unit}
    {later : Frame Client} :
    runFrom frame (callWith run method arguments) = (.ok result, later) ↔
      ∃ returned machine given,
        runFrom frame.machine (run method arguments) = (.ok returned, machine) ∧
          method.Gives returned given ∧ later = ⟨machine, given ++ frame.stack⟩ := by
  constructor
  · intro calls
    obtain ⟨returned, middle, runs, pushes⟩ := exists_of_bind_ok calls
    obtain ⟨runs, stack⟩ := onMachine_ends.1 runs
    obtain ⟨pushes, machine⟩ := onStack_ends.1 pushes
    obtain ⟨given, gives, same⟩ := OperandStack.pushResult_eq_ok.1 pushes
    refine ⟨returned, middle.machine, given, runs, gives, ?_⟩
    rw [← machine, ← stack, ← same]
  · rintro ⟨returned, machine, given, runs, gives, rfl⟩
    have ran : runFrom frame (onMachine (run method arguments)) =
        (.ok returned, ⟨machine, frame.stack⟩) :=
      onMachine_ends.2 ⟨runs, rfl⟩
    rw [callWith, runFrom_bind_ok ran]
    exact onStack_ends.2 ⟨OperandStack.pushResult_eq_ok.2 ⟨given, gives, rfl⟩, rfl⟩

end FrameM

/-! ### Calls without a receiver -/

/-- The computation does not fail for want of a receiver. -/
abbrev HasReceivers {σ α : Type} (action : ExceptT Error (StateM σ) α) : Prop :=
  Raises (fun error => error ≠ .internal .noReceiver) action

theorem Blameless.hasReceivers {α : Type} {action : WorldM α} (blameless : Blameless action) :
    HasReceivers action :=
  Raises.mono blameless fun _ own same => own (same ▸ trivial)

namespace OperandStack

theorem pop_hasReceivers : HasReceivers pop := by
  refine .bind .get fun stack => ?_
  split
  · exact .bind (.of_ok fun _ => ⟨⟨⟩, rfl⟩) fun _ => .pure _
  · exact .throw nofun

theorem popShape_hasReceivers (shape : Shape) : HasReceivers (popShape shape) := by
  cases shape with
  | int | float | long | double | reference =>
      refine .map (.bind pop_hasReceivers fun value => ?_)
      split
      · exact .pure _
      · exact .throw nofun

theorem popTyped_hasReceivers (type : FieldType) : HasReceivers (popTyped type.valueType) := by
  rw [popTyped, type.shape?_valueType]
  exact .map (popShape_hasReceivers type.shape)

theorem popTypedAll_hasReceivers (reversed : List FieldType) (popped : List Value) :
    HasReceivers (popTypedAll reversed popped) := by
  induction reversed generalizing popped with
  | nil => exact .pure _
  | cons type rest inductionHypothesis =>
      exact .bind (popTyped_hasReceivers type) fun value => inductionHypothesis (value :: popped)

theorem popArguments_hasReceivers (method : Method) : HasReceivers (popArguments method) := by
  refine .bind (popTypedAll_hasReceivers _ _) fun arguments => ?_
  split
  · exact .pure _
  · refine .bind (.bind pop_hasReceivers fun value => ?_) fun reference => ?_
    · split
      · exact .pure _
      · exact .throw nofun
    · split
      · exact .pure _
      · exact .throw nofun

theorem pushResult_hasReceivers (method : Method) (returned : Option Value) :
    HasReceivers (pushResult method returned) := by
  unfold pushResult
  split
  · exact .pure _
  · exact .throw nofun
  · exact .throw nofun
  · split
    · exact .modify _
    · exact .throw nofun

end OperandStack

section Receivers

variable {run : Runner Client} (runs : ∀ method arguments, HasReceivers (run method arguments))

theorem MachineM.onWorld_raises {α : Type} {errors : Error → Prop} {action : WorldM α}
    (raises : Raises errors action) : Raises errors (onWorld action : MachineM Client α) :=
  ⟨fun machine error fails => raises.raises machine.world error fails⟩

theorem FrameM.onMachine_raises {α : Type} {errors : Error → Prop} {action : MachineM Client α}
    (raises : Raises errors action) : Raises errors (onMachine action) :=
  ⟨fun frame error fails => raises.raises frame.machine error fails⟩

theorem FrameM.onStack_raises {α : Type} {errors : Error → Prop} {action : StackM α}
    (raises : Raises errors action) : Raises errors (onStack action : FrameM Client α) :=
  ⟨fun frame error fails => raises.raises frame.stack error fails⟩

theorem note_hasReceivers (id : ClassId) (occurrence : Occurrence) :
    HasReceivers (note id occurrence : MachineM Client Unit) :=
  MachineM.onWorld_raises (.modify _)

theorem advance_hasReceivers (id : ClassId) (next : ClassState) :
    HasReceivers (MachineM.onWorld (World.advance id next) : MachineM Client Unit) :=
  MachineM.onWorld_raises (World.advance_blameless id next).hasReceivers

section Initializing

include runs

theorem runInitializer_hasReceivers (id : ClassId) : HasReceivers (runInitializer run id) := by
  refine .bind (.of_ok fun machine => ⟨machine.world, rfl⟩) fun world => ?_
  dsimp only
  split
  next method _ =>
    split
    · refine .bind (note_hasReceivers id _) fun _ => ?_
      refine .bindGiven (.of_ok fun machine => ⟨_, rfl⟩) fun machine outcome later ends => ?_
      refine .bind (note_hasReceivers id _) fun _ => .map (.ofExcept fun error fails => ?_)
      have answer : Except.ok (runFrom machine (run method [])).1 = .ok outcome :=
        congrArg Prod.fst ends
      rw [fails] at answer
      exact (runs method []).raises machine error (Except.ok.inj answer)
    · exact .pure _
  · exact .pure _

theorem initializeAlong_hasReceivers (superclasses : List ClassId) :
    HasReceivers (initializeAlong run superclasses) := by
  induction superclasses with
  | nil => exact .pure _
  | cons id rest inductionHypothesis =>
      refine .tryCatch ?_ fun error allowed =>
        .bind (note_hasReceivers id _) fun _ => .throw allowed
      refine .bind (.of_ok fun machine => ⟨machine.world, rfl⟩) fun world => ?_
      dsimp only
      split
      · exact .pure _
      · split
        · exact .pure _
        · exact .pure _
        · exact .throw nofun
        · exact .throw nofun
        · refine .bind (advance_hasReceivers id _) fun _ =>
            .bind (note_hasReceivers id _) fun _ => ?_
          refine .bind ?_ fun _ => .bind (advance_hasReceivers id _) fun _ => note_hasReceivers id _
          refine .tryCatch ?_ fun error allowed => ?_
          · exact .bind inductionHypothesis fun _ => runInitializer_hasReceivers runs id
          · refine .bind (MachineM.onWorld_raises (.modify _)) fun _ => .throw ?_
            cases error with
            | runtime => exact nofun
            | linkage | internal => exact allowed

/-- Classes are initialized without calls that want a receiver, unless methods want one. -/
theorem initializeClass_hasReceivers (id : ClassId) : HasReceivers (initializeClass run id) :=
  .bind (.of_ok fun machine => ⟨machine.world, rfl⟩) fun _ => initializeAlong_hasReceivers runs _

end Initializing

namespace FrameM

theorem methodAt_hasReceivers (current : ClassId) (index : UInt16) :
    HasReceivers (methodAt current index : FrameM Client Method) := by
  refine .bind (.of_ok fun frame => ⟨frame.machine.world, rfl⟩) fun world => ?_
  refine .bind (.ofExcept fun error fails same => ?_) fun tag => ?_
  · exact World.tagAt_blameless fails (same ▸ trivial)
  · refine .bind (onMachine_raises (MachineM.onWorld_raises ?_)) fun found => ?_
    · split
      · exact (World.resolveInterfaceMethod_blameless current index).hasReceivers
      · exact (World.resolveMethod_blameless current index).hasReceivers
    · split
      · exact .pure _
      · exact .throw nofun

/-- A call is prepared without failing for want of a receiver: an instance method that has taken its
arguments has one. -/
theorem prepareCall_hasReceivers {initializing : ClassId → MachineM Client Unit}
    (initializes : ∀ id, HasReceivers (initializing id)) (current : ClassId) (index : UInt16)
    (kind : CallKind) : HasReceivers (prepareCall initializing current index kind) := by
  cases kind with
  | special =>
      refine .bind (methodAt_hasReceivers current index) fun method => ?_
      split
      · exact .throw nofun
      · split
        · exact .throw nofun
        · exact .bind (onStack_raises (OperandStack.popArguments_hasReceivers method))
            fun arguments => .pure _
  | static =>
      refine .bind (methodAt_hasReceivers current index) fun method => ?_
      split
      · exact .throw nofun
      · refine .bind (onMachine_raises (initializes method.owner)) fun _ => ?_
        exact .bind (onStack_raises (OperandStack.popArguments_hasReceivers method))
          fun arguments => .pure _
  | dynamic =>
      refine .bind (methodAt_hasReceivers current index) fun resolved => ?_
      split
      · exact .throw nofun
      next dynamic =>
        refine .bindGiven (onStack_raises (OperandStack.popArguments_hasReceivers resolved))
          fun frame arguments later pops => ?_
        have takes := OperandStack.popArguments_eq_ok.1 (onStack_ends.1 pops).1
        obtain ⟨receiver, others, rfl⟩ := takes.receiver dynamic
        refine .bind (.of_ok fun frame => ⟨frame.machine.world, rfl⟩) fun world => ?_
        dsimp only
        split
        · exact .throw nofun
        · exact .pure _

include runs in
/-- A call does not fail for want of a receiver, unless the methods that it runs do. -/
theorem execute_hasReceivers {instruction : Instruction} {kind : CallKind} {index : UInt16}
    (calls : instruction.call? = some (kind, index)) (current : ClassId) :
    HasReceivers (execute run current instruction) := by
  rw [execute_eq_prepareCall calls]
  refine .bind (prepareCall_hasReceivers (initializeClass_hasReceivers runs) current index kind)
    fun call => ?_
  exact .bind (onMachine_raises (runs call.method call.arguments)) fun returned =>
    onStack_raises (OperandStack.pushResult_hasReceivers call.method returned)

end FrameM
end Receivers

/-! ### Calls -/

/-- What a call does from a world that is met, where names are without blanks. It is prepared, and
if that fails it fails alike. Otherwise one method runs, once: it has a body, is static just as the
call is, and has the name and the descriptor of the method that is referred to, and its arguments
are what it takes off the stack. The call succeeds exactly if what the method returns is given back
as it should be. A call whose operands are not as they should be is not prepared, and no call fails
for want of a receiver. -/
theorem FrameM.execute_call {instruction : Instruction} {kind : CallKind} {index : UInt16}
    (calls : instruction.call? = some (kind, index)) (run : Runner Client) (current : ClassId)
    (frame : Frame Client) (met : frame.machine.world.Met)
    (plain : ∀ resolved middle, runFrom frame (methodAt current index) = (.ok resolved, middle) →
      middle.machine.world.NamesWithoutBlanks) :
    let preparation := prepareCall (initializeClass run) current index kind
    execute run current instruction =
        (do
          let call ← preparation
          callWith run call.method call.arguments) ∧
      (∀ error later, runFrom frame preparation = (.error error, later) →
        runFrom frame (execute run current instruction) = (.error error, later)) ∧
      (∀ call later, runFrom frame preparation = (.ok call, later) →
        (∃ resolved middle, runFrom frame (methodAt current index) = (.ok resolved, middle) ∧
          Prepares kind resolved frame.stack later.stack call) ∧
        ∀ last, runFrom frame (execute run current instruction) = (.ok (), last) ↔
          ∃ returned machine given,
            runFrom later.machine (run call.method call.arguments) = (.ok returned, machine) ∧
              call.method.Gives returned given ∧ last = ⟨machine, given ++ later.stack⟩) ∧
      (∀ resolved middle, runFrom frame (methodAt current index) = (.ok resolved, middle) →
        (∀ arguments after, ¬ resolved.Takes arguments frame.stack after) →
          ∃ error later, runFrom frame preparation = (.error error, later)) ∧
      ((∀ method arguments, HasReceivers (run method arguments)) →
        HasReceivers (execute run current instruction)) := by
  intro preparation
  have same := @execute_eq_prepareCall _ run current _ _ _ calls
  have prepared {call : PreparedCall} {later : Frame Client}
      (prepares : runFrom frame preparation = (.ok call, later)) :
      ∃ resolved middle, runFrom frame (methodAt current index) = (.ok resolved, middle) ∧
        Prepares kind resolved frame.stack later.stack call := by
    obtain ⟨resolved, middle, resolves, fitting⟩ := prepareCall_ok met.clean prepares
    exact ⟨resolved, middle, resolves, fitting (plain resolved middle resolves)⟩
  refine ⟨same, ?_, ?_, ?_, fun runs => execute_hasReceivers runs calls current⟩
  · intro error later fails
    rw [same, runFrom_bind_error fails]
  · intro call later prepares
    refine ⟨prepared prepares, fun last => ?_⟩
    rw [same, runFrom_bind_ok prepares]
    exact callWith_eq_ok
  · intro resolved middle resolves unfit
    rcases ends : runFrom frame preparation with ⟨error | call, later⟩
    · exact ⟨error, later, rfl⟩
    · obtain ⟨_, _, resolvesToo, fitting⟩ := prepared ends
      rw [resolves] at resolvesToo
      cases resolvesToo
      exact absurd fitting.takes (unfit _ _)

namespace Overriding

set_option maxRecDepth 20000

theorem names (resolved : Method) (middle : Frame Unit)
    (resolves : runFrom frame (FrameM.methodAt counter 8) = (.ok resolved, middle)) :
    middle.machine.world.NamesWithoutBlanks := by
  have plain : ((runFrom frame (FrameM.methodAt counter 8)).2.machine.world.classes.all fun type =>
      type.file?.all fun file => file.methods.all fun member =>
        (file.requireText member.name).toOption.all fun name => !name.toList.contains ' ') := by
    decide +kernel
  rw [resolves] at plain
  refine World.namesWithoutBlanks_of_files
    fun type among file declared member listed name text => ?_
  have here := Array.all_eq_true'.1 plain type among
  rw [declared, Option.all_some, List.all_eq_true] at here
  have here := here member listed
  rw [text] at here
  simpa [Except.toOption] using here

theorem prepared : (runFrom frame (FrameM.prepareCall (initializeClass runner) counter 8
    .dynamic)).1.toOption.map (fun call => (call.method.owner, call.arguments)) =
      some (step, [.reference (some ⟨0⟩), .int 44, .long 5]) := by
  decide +kernel

end Overriding

/-- A call of the method of `Counter` runs that of `Step` on the instance, with the int cut down to
a byte. -/
theorem FrameM.execute_call_overriding :
    (Instruction.invokevirtual 8).call? = some (.dynamic, 8) ∧ Overriding.frame.machine.world.Met ∧
      ∃ call later resolved middle,
        runFrom Overriding.frame (prepareCall (initializeClass Overriding.runner)
          Overriding.counter 8 .dynamic) = (.ok call, later) ∧
        call.method.owner = Overriding.step ∧
        call.arguments = [.reference (some ⟨0⟩), .int 44, .long 5] ∧
        runFrom Overriding.frame (methodAt Overriding.counter 8) = (.ok resolved, middle) ∧
        middle.machine.world.NamesWithoutBlanks ∧
        Prepares .dynamic resolved Overriding.frame.stack later.stack call := by
  obtain ⟨_, _, prepares, _⟩ :=
    @execute_call Unit (.invokevirtual 8) .dynamic 8 rfl Overriding.runner
      Overriding.counter Overriding.frame Overriding.met_frame Overriding.names
  have prepared := Overriding.prepared
  rcases ends : runFrom Overriding.frame (prepareCall (initializeClass Overriding.runner)
    Overriding.counter 8 .dynamic) with ⟨error | call, later⟩
  · rw [ends] at prepared
    cases prepared
  · rw [ends] at prepared
    obtain ⟨owner, arguments⟩ := Prod.mk.inj (Option.some.inj prepared)
    obtain ⟨⟨resolved, middle, resolves, fitting⟩, _⟩ := prepares call later ends
    exact ⟨rfl, Overriding.met_frame, call, later, resolved, middle, rfl, owner, arguments,
      resolves, Overriding.names resolved middle resolves, fitting⟩

end JavaMachine
