import JavaMachine.Instruction
import JavaMachine.Proofs.Computation

/-!
# Operands and results

A computation exchanges values on the operand stack: it takes values off the top and puts others in
their place. Where it fails it has taken no more than that and put nothing there. What lies below
the operands is never touched.
-/

namespace JavaMachine

/-! ### Shapes -/

/-- How values of the type are kept. -/
def FieldType.shape : FieldType → Shape
  | primitive .float => .float
  | primitive .long => .long
  | primitive .double => .double
  | primitive _ => .int
  | object _ | array _ => .reference

theorem FieldType.shape?_valueType (type : FieldType) :
    type.valueType.shape? = some type.shape := by
  cases type with
  | primitive primitive => cases primitive <;> rfl
  | object | array => rfl

theorem Value.fits_valueType {value : Value} {type : FieldType} :
    value.fits type.valueType ↔ value.shape = type.shape := by
  simp [Value.fits, type.shape?_valueType, eq_comm]

@[simp] theorem Value.shape_narrow (value : Value) (type : ValueType) :
    (value.narrow type).shape = value.shape := by
  cases value <;> rfl

@[simp] theorem Value.fits_narrow (value : Value) (type other : ValueType) :
    (value.narrow other).fits type = value.fits type := by
  rw [Value.fits, Value.shape_narrow, Value.fits]

/-- How the values of the field are kept. -/
def Field.shape (field : Field) : Shape := field.type.shape

/-- How cells of the type are kept on the stack. -/
def CellType.shape : CellType → Shape
  | byte | char | short | int => .int
  | long => .long
  | float => .float
  | double => .double

/-- How constants with the tag are kept, if they can be loaded. -/
def ConstantTag.shape? : ConstantTag → Option Shape
  | integer => some .int
  | float => some .float
  | long => some .long
  | double => some .double
  | string | classRef => some .reference
  | _ => none

namespace Method

/-- What a call of the method takes from the stack, the top first: its parameters, and below them
the receiver of an instance method. -/
def operands (method : Method) : List Shape :=
  (method.type.parameters.map FieldType.shape).reverse ++
    if method.isStatic then [] else [.reference]

/-- What a call of the method puts onto the stack. -/
def results (method : Method) : List Shape := (method.type.result.map FieldType.shape).toList

end Method

/-! ### Exchanges -/

variable {σ α β Client : Type}

/-- From a state on the computation takes values of some shapes off the stack in view, the top
first, and puts values of other shapes in their place. If it fails it has only taken, and no more
than that. -/
structure Exchanges (view : σ → OperandStack) (operands results : List Shape)
    (action : ExceptT Error (StateM σ) α) (start : σ) : Prop where
  ok : ∀ result later, runFrom start action = (.ok result, later) → ∃ taken given rest,
    view start = taken ++ rest ∧ view later = given ++ rest ∧
      taken.map Value.shape = operands ∧ given.map Value.shape = results
  error : ∀ error later, runFrom start action = (.error error, later) → ∃ taken,
    view start = taken ++ view later ∧ taken.length ≤ operands.length

namespace Exchanges

variable {view : σ → OperandStack} {operands more results : List Shape} {start : σ}
variable {action : ExceptT Error (StateM σ) α} {next : α → ExceptT Error (StateM σ) β}

/-- The stack is left as it is. -/
theorem of_same (same : view (runFrom start action).2 = view start) :
    Exchanges view [] [] action start := by
  constructor
  · intro result later ends
    rw [ends] at same
    exact ⟨[], [], view start, rfl, same, rfl, rfl⟩
  · intro error later ends
    rw [ends] at same
    exact ⟨[], same.symm, Nat.le_refl _⟩

/-- A computation that goes like another one. -/
theorem of_run {other : ExceptT Error (StateM σ) α}
    (exchanges : Exchanges view operands results other start)
    (same : runFrom start action = runFrom start other) :
    Exchanges view operands results action start where
  ok result later ends := exchanges.ok result later (same ▸ ends)
  error error later ends := exchanges.error error later (same ▸ ends)

/-- Where nothing is taken and nothing given the stack is left as it is. -/
theorem same (exchanges : Exchanges view [] [] action start) :
    view (runFrom start action).2 = view start := by
  rcases ends : runFrom start action with ⟨error | result, later⟩
  · obtain ⟨taken, same, few⟩ := exchanges.error error later ends
    cases List.eq_nil_of_length_eq_zero (Nat.le_zero.1 few)
    exact same.symm
  · obtain ⟨taken, given, rest, same, sameLater, none, noneGiven⟩ := exchanges.ok result later ends
    cases List.map_eq_nil_iff.1 none
    cases List.map_eq_nil_iff.1 noneGiven
    exact sameLater.trans same.symm

theorem pure (result : α) : Exchanges view [] [] (Pure.pure result) start := of_same rfl

theorem throw (error : Error) :
    Exchanges view operands results (MonadExcept.throw error : ExceptT Error (StateM σ) α)
      start where
  ok _ _ ends := by cases ends
  error other later ends := by
    cases ends
    exact ⟨[], rfl, Nat.zero_le _⟩

theorem ofExcept (outcome : Except Error α) :
    Exchanges view [] [] (ofExcept outcome : ExceptT Error (StateM σ) α) start := by
  cases outcome with
  | ok result => exact pure result
  | error error => exact throw error

/-- Operands are taken one after the other; what is put in their place comes last. -/
theorem bind (first : Exchanges view operands [] action start)
    (rest : ∀ result later, runFrom start action = (.ok result, later) →
      Exchanges view more results (next result) later) :
    Exchanges view (operands ++ more) results (action >>= next) start := by
  rcases ends : runFrom start action with ⟨error | result, middle⟩
  · constructor
    · intro result later endsToo
      rw [runFrom_bind_error ends] at endsToo
      cases endsToo
    · intro other later endsToo
      rw [runFrom_bind_error ends] at endsToo
      cases endsToo
      obtain ⟨taken, same, few⟩ := first.error error middle ends
      exact ⟨taken, same, by simp; omega⟩
  · obtain ⟨taken, given, below, same, sameLater, shapes, none⟩ := first.ok result middle ends
    -- the first part puts nothing on the stack, so the second takes from what lay below
    cases List.map_eq_nil_iff.1 none
    have second := rest result middle ends
    constructor
    · intro other later endsToo
      rw [runFrom_bind_ok ends] at endsToo
      obtain ⟨takenNext, given, rest, sameNext, sameLast, shapesNext, shapesGiven⟩ :=
        second.ok other later endsToo
      refine ⟨taken ++ takenNext, given, rest, ?_, sameLast, ?_, shapesGiven⟩
      · rw [same, List.append_assoc, ← sameNext, sameLater, List.nil_append]
      · rw [List.map_append, shapes, shapesNext]
    · intro error later endsToo
      rw [runFrom_bind_ok ends] at endsToo
      obtain ⟨takenNext, sameNext, few⟩ := second.error error later endsToo
      refine ⟨taken ++ takenNext, ?_, ?_⟩
      · rw [same, List.append_assoc, ← sameNext, sameLater, List.nil_append]
      · have length := congrArg List.length shapes
        simp only [List.length_map] at length
        simp only [List.length_append]
        omega

/-- A step that goes on without taking anything more. -/
theorem bindGiving (first : Exchanges view operands [] action start)
    (rest : ∀ result later, runFrom start action = (.ok result, later) →
      Exchanges view [] results (next result) later) :
    Exchanges view operands results (action >>= next) start := by
  rw [← List.append_nil operands]
  exact first.bind rest

theorem map {change : α → β} (exchanges : Exchanges view operands [] action start) :
    Exchanges view operands [] (change <$> action) start := by
  rw [map_eq_pure_bind]
  exact exchanges.bindGiving fun _ _ _ => pure _

/-- A value is taken whose shape shows only later. -/
theorem bindValue {shape : Shape} {view : σ → OperandStack} {start : σ}
    {action : ExceptT Error (StateM σ) Value} {next : Value → ExceptT Error (StateM σ) β}
    (takes : ∀ value later, runFrom start action = (.ok value, later) →
      view start = value :: view later)
    (fails : ∀ error later, runFrom start action = (.error error, later) →
      view start = view later)
    (rest : ∀ value later, runFrom start action = (.ok value, later) →
      Exchanges view more results (next value) later ∧
        ∀ result last, runFrom later (next value) = (.ok result, last) → value.shape = shape) :
    Exchanges view (shape :: more) results (action >>= next) start := by
  rcases ends : runFrom start action with ⟨error | value, middle⟩
  · constructor
    · intro result later endsToo
      rw [runFrom_bind_error ends] at endsToo
      cases endsToo
    · intro other later endsToo
      rw [runFrom_bind_error ends] at endsToo
      cases endsToo
      exact ⟨[], fails error middle ends, Nat.zero_le _⟩
  · have same := takes value middle ends
    obtain ⟨second, shaped⟩ := rest value middle ends
    constructor
    · intro result later endsToo
      rw [runFrom_bind_ok ends] at endsToo
      obtain ⟨taken, given, below, sameNext, sameLast, shapes, shapesGiven⟩ :=
        second.ok result later endsToo
      refine ⟨value :: taken, given, below, ?_, sameLast, ?_, shapesGiven⟩
      · rw [same, sameNext, List.cons_append]
      · rw [List.map_cons, shaped result later endsToo, shapes]
    · intro error later endsToo
      rw [runFrom_bind_ok ends] at endsToo
      obtain ⟨taken, sameNext, few⟩ := second.error error later endsToo
      refine ⟨value :: taken, ?_, Nat.succ_le_succ few⟩
      rw [same, sameNext, List.cons_append]

end Exchanges

/-! ### The stack itself -/

namespace OperandStack

variable {stack : OperandStack}

theorem runFrom_pop_ok {value : Value} {later : OperandStack}
    (ends : runFrom stack pop = (.ok value, later)) : stack = value :: later := by
  cases stack with
  | nil => cases ends
  | cons top rest =>
      cases ends
      rfl

theorem runFrom_pop_error {error : Error} {later : OperandStack}
    (ends : runFrom stack pop = (.error error, later)) : stack = later := by
  cases stack with
  | nil =>
      cases ends
      rfl
  | cons top rest => cases ends

theorem push_exchanges (value : Value) : Exchanges id [] [value.shape] (push value) stack where
  ok _ later ends := by
    cases ends
    exact ⟨[], [value], stack, rfl, rfl, rfl, rfl⟩
  error _ _ ends := by cases ends

/-- A pop that accepts values of one shape only. -/
theorem popAs_exchanges {shape : Shape} {read : Value → StackM α}
    (leaves : ∀ (stack : OperandStack) value, (runFrom stack (read value)).2 = stack)
    (accepts : ∀ (stack later : OperandStack) value result,
      runFrom stack (read value) = (.ok result, later) → value.shape = shape) :
    Exchanges id [shape] [] (pop >>= read) stack :=
  Exchanges.bindValue (fun _ _ => runFrom_pop_ok) (fun _ _ => runFrom_pop_error)
    fun value later _ => ⟨.of_same (leaves later value),
      fun result last ends => accepts later last value result ends⟩

theorem popInt_exchanges : Exchanges id [.int] [] popInt stack := by
  apply popAs_exchanges
  · intro stack value
    cases value <;> rfl
  · intro stack later value result ends
    cases value with
    | int value => rfl
    | _ => cases ends

theorem popFloat_exchanges : Exchanges id [.float] [] popFloat stack := by
  apply popAs_exchanges
  · intro stack value
    cases value <;> rfl
  · intro stack later value result ends
    cases value with
    | float bits => rfl
    | _ => cases ends

theorem popLong_exchanges : Exchanges id [.long] [] popLong stack := by
  apply popAs_exchanges
  · intro stack value
    cases value <;> rfl
  · intro stack later value result ends
    cases value with
    | long value => rfl
    | _ => cases ends

theorem popDouble_exchanges : Exchanges id [.double] [] popDouble stack := by
  apply popAs_exchanges
  · intro stack value
    cases value <;> rfl
  · intro stack later value result ends
    cases value with
    | double bits => rfl
    | _ => cases ends

theorem popReference_exchanges : Exchanges id [.reference] [] popReference stack := by
  apply popAs_exchanges
  · intro stack value
    cases value <;> rfl
  · intro stack later value result ends
    cases value with
    | reference object => rfl
    | _ => cases ends

theorem popReference_ok {object : Option ObjectId} {later : OperandStack}
    (ends : runFrom stack popReference = (.ok object, later)) :
    stack = .reference object :: later := by
  cases stack with
  | nil => cases ends
  | cons top rest =>
      cases top with
      | reference own =>
          cases ends
          rfl
      | _ => cases ends

theorem popInt_ok {value : Int32} {later : OperandStack}
    (ends : runFrom stack popInt = (.ok value, later)) : stack = .int value :: later := by
  cases stack with
  | nil => cases ends
  | cons top rest =>
      cases top with
      | int own =>
          cases ends
          rfl
      | _ => cases ends

theorem popShape_exchanges (shape : Shape) : Exchanges id [shape] [] (popShape shape) stack := by
  cases shape with
  | int => exact popInt_exchanges.map
  | float => exact popFloat_exchanges.map
  | long => exact popLong_exchanges.map
  | double => exact popDouble_exchanges.map
  | reference => exact popReference_exchanges.map

theorem popCell_exchanges (type : CellType) :
    Exchanges id [type.shape] [] (popCell type) stack := by
  cases type with
  | byte | char | short => exact popInt_exchanges.map
  | int => exact popInt_exchanges
  | long => exact popLong_exchanges
  | float => exact popFloat_exchanges
  | double => exact popDouble_exchanges

theorem shape_ofCell (type : CellType) (cell : type.Cell) :
    (ofCell type cell).shape = type.shape := by
  cases type <;> rfl

theorem popTyped_exchanges (type : FieldType) :
    Exchanges id [type.shape] [] (popTyped type.valueType) stack := by
  rw [popTyped, type.shape?_valueType]
  exact (popShape_exchanges type.shape).map

theorem popTypedAll_exchanges (reversed : List FieldType) (popped : List Value) :
    Exchanges id (reversed.map FieldType.shape) [] (popTypedAll reversed popped) stack := by
  induction reversed generalizing popped stack with
  | nil => exact .pure popped
  | cons type rest inductionHypothesis =>
      exact (popTyped_exchanges type).bind fun value _ _ => inductionHypothesis (value :: popped)

/-- The arguments of a call are taken, the receiver last. -/
theorem popArguments_exchanges (method : Method) :
    Exchanges id method.operands [] (popArguments method) stack := by
  rw [Method.operands, ← List.map_reverse]
  refine (popTypedAll_exchanges _ []).bind fun arguments later _ => ?_
  split
  · exact .pure arguments
  · refine popReference_exchanges.bind fun popped last _ => ?_
    split
    · exact .pure _
    · exact .throw _

/-- What a method with a result has returned is put onto the stack if it fits. -/
theorem pushResult_some {method : Method} {type : FieldType}
    (result : method.type.result = some type) (value : Value) :
    pushResult method (some value) =
      if value.fits type.valueType then push (value.narrow type.valueType)
      else throw (.internal (.wrongReturned method.label value.shape)) := by
  unfold pushResult
  rw [MethodType.resultType, result]
  cases type <;> rfl

theorem pushResult_exchanges (method : Method) (returned : Option Value) :
    Exchanges id [] method.results (pushResult method returned) stack := by
  rw [Method.results]
  cases result : method.type.result with
  | none =>
      unfold pushResult
      rw [MethodType.resultType, result]
      cases returned with
      | none => exact .pure _
      | some value => exact .throw _
  | some type =>
      cases returned with
      | none =>
          unfold pushResult
          rw [MethodType.resultType, result]
          cases type <;> exact .throw _
      | some value =>
          rw [pushResult_some result]
          split
          next fits =>
            rw [Option.map_some, Option.toList_some, ← Value.fits_valueType.1 fits,
              ← value.shape_narrow type.valueType]
            exact push_exchanges _
          next => exact .throw _

end OperandStack

/-! ### Frames -/

namespace FrameM

variable {frame : Frame Client}

/-- How a computation on the machine of a frame ends. -/
theorem onMachine_ends {action : MachineM Client α} {outcome : Except Error α}
    {later : Frame Client} :
    runFrom frame (onMachine action) = (outcome, later) ↔
      runFrom frame.machine action = (outcome, later.machine) ∧ later.stack = frame.stack := by
  change ((runFrom frame.machine action).1, Frame.mk (runFrom frame.machine action).2 frame.stack) =
    (outcome, later) ↔ _
  rcases runFrom frame.machine action with ⟨known, machine⟩
  cases later
  simp only [Prod.mk.injEq, Frame.mk.injEq]
  exact ⟨fun same => ⟨⟨same.1, same.2.1⟩, same.2.2.symm⟩,
    fun same => ⟨same.1.1, same.1.2, same.2.symm⟩⟩

/-- How a computation on the stack of a frame ends. -/
theorem onStack_ends {action : StackM α} {outcome : Except Error α} {later : Frame Client} :
    runFrom frame (onStack action) = (outcome, later) ↔
      runFrom frame.stack action = (outcome, later.stack) ∧ later.machine = frame.machine := by
  change ((runFrom frame.stack action).1, Frame.mk frame.machine (runFrom frame.stack action).2) =
    (outcome, later) ↔ _
  rcases runFrom frame.stack action with ⟨known, stack⟩
  cases later
  simp only [Prod.mk.injEq, Frame.mk.injEq]
  exact ⟨fun same => ⟨⟨same.1, same.2.2⟩, same.2.1.symm⟩,
    fun same => ⟨same.1.1, same.2.symm, same.1.2⟩⟩

theorem onWorld_ok {action : WorldM α} {result : α} {later : Frame Client}
    (ends : runFrom frame (onWorld action) = (.ok result, later)) :
    (runFrom frame.machine.world action).1 = .ok result ∧
      later = { frame with machine := { frame.machine with
        world := (runFrom frame.machine.world action).2 } } :=
  ⟨congrArg Prod.fst ends, (congrArg Prod.snd ends).symm⟩

theorem onWorld_of_runFrom {action : WorldM α} {outcome : Except Error α} {later : World}
    (ends : runFrom frame.machine.world action = (outcome, later)) :
    runFrom frame (onWorld action) =
      (outcome, { frame with machine := { frame.machine with world := later } }) := by
  change ((runFrom frame.machine.world action).1, { frame with machine := { frame.machine with
    world := (runFrom frame.machine.world action).2 } }) = _
  rw [ends]

/-- To load a constant is to find its value by its tag and to push it. -/
theorem runFrom_loadConstant {current : ClassId} {index : UInt16} {tag : ConstantTag}
    (known : frame.machine.world.tagAt current index = .ok tag) :
    runFrom frame (loadConstant current index) = runFrom frame (constantValue current index tag >>=
      fun value => onStack (OperandStack.push value)) := by
  have reads : runFrom frame world = (.ok frame.machine.world, frame) := rfl
  rw [loadConstant, runFrom_bind_ok reads, known]
  rfl

end FrameM
end JavaMachine
