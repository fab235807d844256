import JavaMachine.Proofs.Stores

/-!
# What primitive arrays hold

A store into a primitive array leaves there what a field of the type of the elements would hold, and
a load gives it back. An access has to ask for cells as the array has them, at a place that the
array has; the place is looked at first. An access that is refused changes nothing but the stack.
-/

namespace JavaMachine

/-! ### Cells -/

/-- The type of the cells in which elements of the type are kept. -/
def Primitive.cellType : Primitive → CellType
  | boolean | byte => .byte
  | char => .char
  | short => .short
  | int => .int
  | long => .long
  | float => .float
  | double => .double

theorem CellType.exists_element (type : CellType) :
    ∃ element : Primitive, element.cellType = type := by
  cases type with
  | byte => exact ⟨.byte, rfl⟩
  | char => exact ⟨.char, rfl⟩
  | short => exact ⟨.short, rfl⟩
  | int => exact ⟨.int, rfl⟩
  | long => exact ⟨.long, rfl⟩
  | float => exact ⟨.float, rfl⟩
  | double => exact ⟨.double, rfl⟩

/-- What is kept of a cell; of a boolean it is bit 0. -/
def Primitive.keep : (element : Primitive) → element.cellType.Cell → element.cellType.Cell
  | boolean => fun cell : Int8 => cell &&& 1
  | byte | char | short | int | long | float | double => id

/-- Bit 0 of an int outlasts a cut to eight bits. -/
theorem toInt32_toInt8_and_one (value : Int32) : (value.toInt8 &&& 1).toInt32 = value &&& 1 := by
  apply Int32.toBitVec_inj.1
  simp only [Int8.toBitVec_toInt32, Int8.toBitVec_and, Int32.toBitVec_toInt8, Int32.toBitVec_and]
  ext place inside
  rcases Nat.eq_zero_or_pos place with rfl | positive
  · simp [BitVec.getElem_signExtend]
  · simp [BitVec.getElem_signExtend, BitVec.getElem_one, Nat.ne_of_gt positive]

/-- A value that is kept on the stack as the cells of an array are can be popped for a cell. What is
kept of the cell is the value as a field would hold it. -/
theorem Primitive.exists_cell (element : Primitive) {value : Value}
    (shape : value.shape = element.cellType.shape) : ∃ cell : element.cellType.Cell,
      (∀ stack, runFrom (value :: stack) (OperandStack.popCell element.cellType) =
        (.ok cell, stack)) ∧
      OperandStack.ofCell element.cellType (element.keep cell) =
        value.narrow (.primitive element) := by
  cases element with
  | boolean =>
      -- the cell cuts the int to eight bits before all but the lowest are cleared
      cases value with
      | int value =>
          exact ⟨value.toInt8, fun _ => rfl, congrArg Value.int (toInt32_toInt8_and_one value)⟩
      | _ => cases shape
  | byte | char | short | int =>
      cases value with
      | int value => exact ⟨_, fun _ => rfl, rfl⟩
      | _ => cases shape
  | long =>
      cases value with
      | long value => exact ⟨_, fun _ => rfl, rfl⟩
      | _ => cases shape
  | float =>
      cases value with
      | float bits => exact ⟨_, fun _ => rfl, rfl⟩
      | _ => cases shape
  | double =>
      cases value with
      | double bits => exact ⟨_, fun _ => rfl, rfl⟩
      | _ => cases shape

/-! ### Elements -/

namespace PrimitiveArray

variable {elements : PrimitiveArray} {type : CellType} {place : Nat} {index : Int32}

/-- The element at a place as it is pushed onto the stack. -/
def value? (elements : PrimitiveArray) (place : Nat) : Option Value :=
  (elements.read? elements.element.cellType place).map
    (OperandStack.ofCell elements.element.cellType)

/-- The array has a place of the index. -/
def Spans (elements : PrimitiveArray) (index : Int32) : Prop :=
  0 ≤ index.toInt ∧ index.toInt < elements.size

instance : Decidable (elements.Spans index) := inferInstanceAs (Decidable (_ ∧ _))

/-- An access that asks for cells of a type is served at an index. -/
structure Serves (elements : PrimitiveArray) (type : CellType) (index : Int32) : Prop where
  spans : elements.Spans index
  cells : elements.element.cellType = type

/-- Why an access is not served. -/
def refusal (elements : PrimitiveArray) (className : String) (type : CellType) (index : Int32) :
    RuntimeException :=
  if elements.Spans index then .wrongElement className elements.element type
  else .indexOutOfBounds index elements.size

theorem throwable_refusal (className : String) :
    (elements.refusal className type index).throwable =
      if elements.Spans index then "java/lang/ClassCastException"
      else "java/lang/ArrayIndexOutOfBoundsException" := by
  unfold refusal
  split <;> rfl

theorem Spans.inside (spans : elements.Spans index) : index.toInt.toNat < elements.size := by
  obtain ⟨notNegative, small⟩ := spans
  omega

theorem checkIndex_of_spans (spans : elements.Spans index) :
    checkIndex index elements.size = .ok index.toInt.toNat :=
  checkIndex_eq_ok.2 ⟨spans.1, spans.inside, rfl⟩

theorem checkIndex_of_not_spans (outside : ¬ elements.Spans index) :
    checkIndex index elements.size = .error (.indexOutOfBounds index elements.size) := by
  apply if_neg
  intro inside
  exact outside ⟨inside.1, by omega⟩

/-- An access at an index to cells of a type: what it gives, or why it is refused. -/
def access {α : Type} (elements : PrimitiveArray) (className : String) (type : CellType)
    (index : Int32) (attempt : Nat → Option α) : Except Error α :=
  match checkIndex index elements.size with
  | .error exception => .error (.runtime exception)
  | .ok place =>
      match attempt place with
      | some result => .ok result
      | none => .error (.runtime (.wrongElement className elements.element type))

section Access

variable {α : Type} {className : String} {attempt : Nat → Option α}

theorem access_of_spans {result : α} (spans : elements.Spans index)
    (gives : attempt index.toInt.toNat = some result) :
    elements.access className type index attempt = .ok result := by
  rw [access, checkIndex_of_spans spans]
  dsimp only
  rw [gives]

/-- An access that gives nothing where the cells are others is refused unless it is served. -/
theorem access_of_not_serves (refused : ¬ elements.Serves type index)
    (nothing : elements.element.cellType ≠ type → ∀ place, attempt place = none) :
    elements.access className type index attempt =
      .error (.runtime (elements.refusal className type index)) := by
  unfold access refusal
  -- the index is looked at before the cells
  by_cases spans : elements.Spans index
  · have others : elements.element.cellType ≠ type := fun same => refused ⟨spans, same⟩
    simp only [checkIndex_of_spans spans, nothing others, if_pos spans]
  · simp only [checkIndex_of_not_spans spans, if_neg spans]

end Access

/-- Where the array has a place it has a cell. -/
theorem exists_read? (inside : place < elements.size) : ∃ cell,
    elements.read? elements.element.cellType place = some cell := by
  cases elements <;> exact ⟨_, Array.getElem?_eq_getElem inside⟩

theorem read?_of_ne (others : elements.element.cellType ≠ type) :
    elements.read? type place = none := by
  cases elements <;> cases type <;> first | rfl | exact absurd rfl others

theorem write?_of_ne (others : elements.element.cellType ≠ type) (cell : type.Cell) :
    elements.write? type place cell = none := by
  unfold write?
  split
  · cases elements <;> cases type <;> first | rfl | exact absurd rfl others
  · rfl

theorem map_getElem?_setIfInBounds {α β : Type} {cells : Array α} (inside : place < cells.size)
    (cell : α) (view : α → β) (other : Nat) :
    (cells.setIfInBounds place cell)[other]?.map view =
      if other = place then some (view cell) else cells[other]?.map view := by
  rw [Array.getElem?_setIfInBounds]
  by_cases same : other = place
  · simp [same, inside]
  · simp [same, Ne.symm same]

/-- A cell that is written is kept at its place, and no other place is changed. -/
theorem exists_write? (inside : place < elements.size) (cell : elements.element.cellType.Cell) :
    ∃ changed, elements.write? elements.element.cellType place cell = some changed ∧
      changed.element = elements.element ∧ changed.size = elements.size ∧
      ∀ other, changed.value? other =
        if other = place then
          some (OperandStack.ofCell elements.element.cellType (elements.element.keep cell))
        else elements.value? other := by
  cases elements <;> exact ⟨_, if_pos inside, rfl, Array.size_setIfInBounds,
    map_getElem?_setIfInBounds inside _ _⟩

end PrimitiveArray

namespace Object

variable {object : Object} {elements : PrimitiveArray} {type : CellType} {index : Int32}

theorem getElement_of_primitives (body : object.body = .primitives elements)
    (className : String) : object.getElement className type index =
      elements.access className type index (elements.read? type) := by
  unfold getElement PrimitiveArray.access
  rw [body]
  dsimp only
  cases checkIndex index elements.size with
  | error exception => rfl
  | ok place =>
      dsimp only
      cases elements.read? type place <;> rfl

theorem putElement_of_primitives (body : object.body = .primitives elements)
    (className : String) (cell : type.Cell) : object.putElement className type index cell =
      (elements.access className type index (elements.write? type · cell)).map fun changed =>
        { object with body := .primitives changed } := by
  unfold putElement PrimitiveArray.access
  rw [body]
  dsimp only
  cases checkIndex index elements.size with
  | error exception => rfl
  | ok place =>
      dsimp only
      cases elements.write? type place cell <;> rfl

/-- An access that is served reads the element at its place. -/
theorem getElement_of_serves (body : object.body = .primitives elements)
    (serves : elements.Serves type index) (className : String) : ∃ cell,
      object.getElement className type index = .ok cell ∧
        elements.value? index.toInt.toNat = some (OperandStack.ofCell type cell) := by
  obtain ⟨spans, rfl⟩ := serves
  obtain ⟨cell, held⟩ := PrimitiveArray.exists_read? spans.inside
  refine ⟨cell, ?_, ?_⟩
  · rw [getElement_of_primitives body]
    exact PrimitiveArray.access_of_spans spans held
  · rw [PrimitiveArray.value?, held]
    rfl

theorem getElement_of_not_serves (body : object.body = .primitives elements)
    (refused : ¬ elements.Serves type index) (className : String) :
    object.getElement className type index =
      .error (.runtime (elements.refusal className type index)) := by
  rw [getElement_of_primitives body]
  exact PrimitiveArray.access_of_not_serves refused fun others _ =>
    PrimitiveArray.read?_of_ne others

theorem putElement_of_not_serves (body : object.body = .primitives elements)
    (refused : ¬ elements.Serves type index) (className : String) (cell : type.Cell) :
    object.putElement className type index cell =
      .error (.runtime (elements.refusal className type index)) := by
  rw [putElement_of_primitives body, PrimitiveArray.access_of_not_serves refused fun others _ =>
    PrimitiveArray.write?_of_ne others cell]
  rfl

end Object

/-! ### The world -/

namespace World

variable {world later : World} {array : ObjectId} {elements : PrimitiveArray} {value : Value}
variable {type : CellType} {index : Int32} {place : Nat}

/-- The primitive array holds the value at the place, and nothing else is changed. -/
structure Puts (world : World) (array : ObjectId) (elements : PrimitiveArray) (place : Nat)
    (value : Value) (later : World) : Prop where
  only : ∃ object, later = world.setObject array object
  others : ∀ other, other ≠ array → later.object other = world.object other
  type : (later.object array).type = (world.object array).type
  holds : ∃ changed, (later.object array).body = .primitives changed ∧
    changed.element = elements.element ∧ changed.size = elements.size ∧
      ∀ other, changed.value? other = if other = place then some value else elements.value? other

/-- Only an object that is there is a primitive array. -/
theorem present_of_primitives (body : (world.object array).body = .primitives elements) :
    array.index < world.objects.size := by
  by_contra absent
  rw [World.object, Array.getD_eq_getD_getElem?, Array.getElem?_eq_none (Nat.le_of_not_lt absent)]
    at body
  cases body

/-- A value is stored if the access is served. -/
theorem exists_puts (body : (world.object array).body = .primitives elements)
    (serves : elements.Serves type index) (shape : value.shape = type.shape) :
    ∃ cell later, (∀ stack, runFrom (value :: stack) (OperandStack.popCell type) =
        (.ok cell, stack)) ∧
      world.putElement array type index cell = .ok later ∧
      world.Puts array elements index.toInt.toNat (value.narrow (.primitive elements.element))
        later := by
  obtain ⟨spans, rfl⟩ := serves
  obtain ⟨cell, pops, kept⟩ := elements.element.exists_cell shape
  obtain ⟨changed, writes, element, size, held⟩ :=
    PrimitiveArray.exists_write? spans.inside cell
  let object : Object := { world.object array with body := .primitives changed }
  have stored : world.putElement array elements.element.cellType index cell =
      .ok (world.setObject array object) := by
    rw [World.putElement, Object.putElement_of_primitives body,
      PrimitiveArray.access_of_spans spans writes]
    rfl
  have here : (world.setObject array object).object array = object := by
    rw [object_setObject, if_pos ⟨rfl, present_of_primitives body⟩]
  refine ⟨cell, world.setObject array object, pops, stored, ?_⟩
  constructor
  · exact ⟨object, rfl⟩
  · intro other different
    rw [object_setObject, if_neg fun both => different both.1.symm]
  · rw [here]
  · refine ⟨changed, by rw [here], element, size, ?_⟩
    rw [← kept]
    exact held

end World

/-! ### The instructions -/

namespace FrameM

variable {Client : Type} {machine : Machine Client} {type : CellType} {array : ObjectId}
variable {index : Int32} {stack : OperandStack} {α β : Type} {frame : Frame Client}

/-- Where the computation fails it has left the machine as it was. -/
def StaysOnError (frame : Frame Client) (action : FrameM Client α) : Prop :=
  ∀ error later, runFrom frame action = (.error error, later) → later.machine = frame.machine

namespace StaysOnError

theorem bind {action : FrameM Client α} {next : α → FrameM Client β}
    (stays : (runFrom frame action).2.machine = frame.machine)
    (rest : ∀ result later, later.machine = frame.machine → StaysOnError later (next result)) :
    StaysOnError frame (action >>= next) := by
  intro error later fails
  rcases ends : runFrom frame action with ⟨other | result, middle⟩
  all_goals rw [ends] at stays
  · rw [runFrom_bind_error ends] at fails
    cases fails
    exact stays
  · rw [runFrom_bind_ok ends] at fails
    exact (rest result middle stays error later fails).trans stays

theorem onStack (action : StackM α) : StaysOnError frame (FrameM.onStack action) :=
  fun _ _ fails => (onStack_ends.1 fails).2

theorem bindStack {action : StackM α} {next : α → FrameM Client β}
    (rest : ∀ result later, later.machine = frame.machine → StaysOnError later (next result)) :
    StaysOnError frame (FrameM.onStack action >>= next) :=
  bind rfl rest

theorem bindExcept {outcome : Except Error α} {next : α → FrameM Client β}
    (rest : ∀ result, StaysOnError frame (next result)) :
    StaysOnError frame (ofExcept outcome >>= next) := by
  cases outcome with
  | error error =>
      intro other later fails
      cases fails
      rfl
  | ok result => exact rest result

/-- A pop of an array and what comes after it. -/
theorem bindArray {next : ObjectId → FrameM Client β}
    (rest : ∀ array later, later.machine = frame.machine → StaysOnError later (next array)) :
    StaysOnError frame (popArray >>= next) := by
  refine bind ?_ rest
  rcases ends : runFrom frame popArray with ⟨error | array, middle⟩
  · exact popArray_error ends
  · exact (popArray_ok ends).2

/-- A change of the world that may be refused. -/
theorem change (attempt : World → Except Error World) :
    StaysOnError frame (onWorld (World.change attempt)) := by
  intro error later fails
  cases attempted : attempt frame.machine.world with
  | error other =>
      rw [onWorld_of_runFrom (World.runFrom_change_error attempted)] at fails
      cases fails
      rfl
  | ok changed =>
      rw [onWorld_of_runFrom (World.runFrom_change_ok attempted)] at fails
      cases fails

end StaysOnError

theorem loadElement_staysOnError (type : CellType) :
    StaysOnError frame (loadElement type : FrameM Client Unit) := by
  refine .bindStack fun index below _ => .bindArray fun array rest _ => ?_
  exact .bindExcept fun cell => .onStack _

theorem storeElement_staysOnError (type : CellType) :
    StaysOnError frame (storeElement type : FrameM Client Unit) := by
  refine .bindStack fun cell first _ => .bindStack fun index below _ =>
    .bindArray fun array rest _ => ?_
  exact .change _

section Operands

variable (run : Runner Client) (current : ClassId) (machine : Machine Client) (array : ObjectId)
  (index : Int32) (stack : OperandStack)

/-- With its operands there a load comes down to the access. -/
theorem runFrom_arrayLoad :
    runFrom (Frame.mk machine (.int index :: .reference (some array) :: stack))
      (execute run current (.arrayLoad type)) = runFrom (Frame.mk machine stack) (do
        let cell ← ofExcept ((machine.world.object array).getElement
          (machine.world.typeOf array).name type index)
        FrameM.onStack (OperandStack.push (OperandStack.ofCell type cell))) := rfl

/-- With its operands there a store comes down to the access, once a cell is popped. -/
theorem runFrom_arrayStore {value : Value} {cell : type.Cell}
    (pops : ∀ stack, runFrom (value :: stack) (OperandStack.popCell type) = (.ok cell, stack)) :
    runFrom (Frame.mk machine (value :: .int index :: .reference (some array) :: stack))
      (execute run current (.arrayStore type)) = runFrom (Frame.mk machine stack)
        (onWorld (World.change fun world => world.putElement array type index cell)) := by
  have popped : runFrom (Frame.mk machine (value :: .int index :: .reference (some array) :: stack))
      (FrameM.onStack (OperandStack.popCell type)) =
        (.ok cell, ⟨machine, .int index :: .reference (some array) :: stack⟩) :=
    onStack_ends.2 ⟨pops _, rfl⟩
  rw [execute, storeElement, runFrom_bind_ok popped]
  rfl

variable {elements : PrimitiveArray}
  (body : (machine.world.object array).body = .primitives elements)
include body

theorem arrayLoad_of_serves (serves : elements.Serves type index) : ∃ value,
    elements.value? index.toInt.toNat = some value ∧
    runFrom (Frame.mk machine (.int index :: .reference (some array) :: stack))
      (execute run current (.arrayLoad type)) = (.ok (), ⟨machine, value :: stack⟩) := by
  obtain ⟨cell, read, held⟩ :=
    Object.getElement_of_serves body serves (machine.world.typeOf array).name
  refine ⟨_, held, ?_⟩
  rw [runFrom_arrayLoad, read]
  rfl

theorem arrayLoad_of_not_serves (refused : ¬ elements.Serves type index) :
    runFrom (Frame.mk machine (.int index :: .reference (some array) :: stack))
      (execute run current (.arrayLoad type)) =
        (.error (.runtime (elements.refusal (machine.world.typeOf array).name type index)),
          ⟨machine, stack⟩) := by
  rw [runFrom_arrayLoad, Object.getElement_of_not_serves body refused]
  rfl

variable {value : Value} (shape : value.shape = type.shape)
include shape

theorem arrayStore_of_serves (serves : elements.Serves type index) : ∃ later,
    runFrom (Frame.mk machine (value :: .int index :: .reference (some array) :: stack))
      (execute run current (.arrayStore type)) =
        (.ok (), ⟨{ machine with world := later }, stack⟩) ∧
    machine.world.Puts array elements index.toInt.toNat
      (value.narrow (.primitive elements.element)) later := by
  obtain ⟨cell, later, pops, stored, puts⟩ := World.exists_puts body serves shape
  refine ⟨later, ?_, puts⟩
  rw [runFrom_arrayStore run current machine array index stack pops]
  exact onWorld_of_runFrom (World.runFrom_change_ok stored)

theorem arrayStore_of_not_serves (refused : ¬ elements.Serves type index) :
    runFrom (Frame.mk machine (value :: .int index :: .reference (some array) :: stack))
      (execute run current (.arrayStore type)) =
        (.error (.runtime (elements.refusal (machine.world.typeOf array).name type index)),
          ⟨machine, stack⟩) := by
  obtain ⟨element, rfl⟩ := type.exists_element
  obtain ⟨cell, pops, _⟩ := element.exists_cell shape
  rw [runFrom_arrayStore run current machine array index stack pops]
  apply onWorld_of_runFrom
  apply World.runFrom_change_error
  rw [World.putElement, Object.putElement_of_not_serves body refused]
  rfl

end Operands
end FrameM

/-- What has been put into a primitive array is loaded from there. -/
theorem World.Puts.load {Client : Type} {world later : World} {array : ObjectId}
    {elements : PrimitiveArray} {index : Int32} {value : Value} {type : CellType}
    (puts : world.Puts array elements index.toInt.toNat value later)
    (serves : elements.Serves type index) (run : Runner Client) (current : ClassId)
    (client : Client) (stack : OperandStack) :
    runFrom (Frame.mk ⟨later, client⟩ (.int index :: .reference (some array) :: stack))
      (FrameM.execute run current (.arrayLoad type)) =
        (.ok (), ⟨⟨later, client⟩, value :: stack⟩) := by
  obtain ⟨changed, body, element, size, held⟩ := puts.holds
  have still : changed.Serves type index := by
    constructor
    · rw [PrimitiveArray.Spans, size]
      exact serves.spans
    · rw [element]
      exact serves.cells
  obtain ⟨found, here, loads⟩ :=
    FrameM.arrayLoad_of_serves run current ⟨later, client⟩ array index stack body still
  rw [held, if_pos rfl] at here
  cases here
  exact loads

/-- A value is stored into a primitive array exactly if the array has a place of the index and keeps
its elements in cells of the type. It is then loaded from there as a field of the type of the
elements would hold it, and nothing else is changed. Otherwise neither stores nor loads change
anything but the stack, and they say what is wrong, the index first. -/
theorem FrameM.primitive_accesses {Client : Type} (run : Runner Client) (current : ClassId)
    (machine : Machine Client) (array : ObjectId) (elements : PrimitiveArray)
    (body : (machine.world.object array).body = .primitives elements) (type : CellType)
    (index : Int32) :
    (∀ value stack, value.shape = type.shape →
      let stored := runFrom (Frame.mk machine
        (value :: .int index :: .reference (some array) :: stack))
          (execute run current (.arrayStore type))
      (stored.1 = .ok () ↔ elements.Serves type index) ∧
      (elements.Serves type index → ∃ later,
        stored = (.ok (), ⟨{ machine with world := later }, stack⟩) ∧
        machine.world.Puts array elements index.toInt.toNat
          (value.narrow (.primitive elements.element)) later ∧
        ∀ below, runFrom (Frame.mk { machine with world := later }
          (.int index :: .reference (some array) :: below))
            (execute run current (.arrayLoad type)) =
              (.ok (), ⟨{ machine with world := later },
                value.narrow (.primitive elements.element) :: below⟩)) ∧
      (¬ elements.Serves type index → stored =
        (.error (.runtime (elements.refusal (machine.world.typeOf array).name type index)),
          ⟨machine, stack⟩))) ∧
    (∀ stack,
      let loaded := runFrom (Frame.mk machine (.int index :: .reference (some array) :: stack))
        (execute run current (.arrayLoad type))
      (elements.Serves type index → ∃ value, elements.value? index.toInt.toNat = some value ∧
        loaded = (.ok (), ⟨machine, value :: stack⟩)) ∧
      (¬ elements.Serves type index → loaded =
        (.error (.runtime (elements.refusal (machine.world.typeOf array).name type index)),
          ⟨machine, stack⟩))) ∧
    (elements.refusal (machine.world.typeOf array).name type index).throwable =
      (if elements.Spans index then "java/lang/ClassCastException"
      else "java/lang/ArrayIndexOutOfBoundsException") ∧
    ∀ stack, StaysOnError ⟨machine, stack⟩ (execute run current (.arrayStore type)) ∧
      StaysOnError ⟨machine, stack⟩ (execute run current (.arrayLoad type)) := by
  refine ⟨?stores, ?loads, PrimitiveArray.throwable_refusal _,
    fun stack => ⟨storeElement_staysOnError type, loadElement_staysOnError type⟩⟩
  case stores =>
    intro value stack shape stored
    refine ⟨⟨fun succeeds => ?_, fun serves => ?_⟩, fun serves => ?_,
      arrayStore_of_not_serves run current machine array index stack body shape⟩
    · by_contra refused
      have fails : stored = _ :=
        arrayStore_of_not_serves run current machine array index stack body shape refused
      rw [fails] at succeeds
      cases succeeds
    · obtain ⟨later, succeeds, _⟩ :=
        arrayStore_of_serves run current machine array index stack body shape serves
      exact congrArg Prod.fst succeeds
    · obtain ⟨later, succeeds, puts⟩ :=
        arrayStore_of_serves run current machine array index stack body shape serves
      exact ⟨later, succeeds, puts, puts.load serves run current machine.client⟩
  case loads =>
    intro stack loaded
    exact ⟨arrayLoad_of_serves run current machine array index stack body,
      arrayLoad_of_not_serves run current machine array index stack body⟩

/-! ### Two switches -/

namespace Switches

/-- An array of two booleans. -/
def world : World :=
  (World.initial [.holding [("java/lang/Object", .withoutMembers 0x0021 "java/lang/Object" "" [])]]
    ).after [.load .bootstrap "[Z", .allocatePrimitives ⟨1⟩ 2]

def array : ObjectId := ⟨0⟩

/-- The operands for storing a value at an index. -/
def storing (value : Value) (index : Int32) : OperandStack :=
  [value, .int index, .reference (some array)]

def runner : Runner Unit := fun _ _ => pure none

set_option maxRecDepth 20000 in
theorem contents : (world.object array).body = .primitives (.boolean #[0, 0]) ∧
    (world.typeOf array).name = "[Z" := by
  decide +kernel

end Switches

/-- The second of two switches is set by an odd number; there is no third one, and none is a
short. -/
theorem FrameM.primitive_accesses_switches :
    (Switches.world.object Switches.array).body = .primitives (.boolean #[0, 0]) ∧
    (∃ later, runFrom (Frame.mk ⟨Switches.world, ()⟩ (Switches.storing (.int 259) 1))
        (execute Switches.runner ⟨0⟩ (.arrayStore .byte)) =
          (.ok (), Frame.mk ⟨later, ()⟩ []) ∧
      runFrom (Frame.mk ⟨later, ()⟩ [.int 1, .reference (some Switches.array)])
        (execute Switches.runner ⟨0⟩ (.arrayLoad .byte)) =
          (.ok (), Frame.mk ⟨later, ()⟩ [.int 1])) ∧
    runFrom (Frame.mk ⟨Switches.world, ()⟩ (Switches.storing (.int 259) 2))
      (execute Switches.runner ⟨0⟩ (.arrayStore .byte)) =
        (.error (.runtime (.indexOutOfBounds 2 2)), Frame.mk ⟨Switches.world, ()⟩ []) ∧
    runFrom (Frame.mk ⟨Switches.world, ()⟩ (Switches.storing (.int 259) 1))
      (execute Switches.runner ⟨0⟩ (.arrayStore .short)) =
        (.error (.runtime (.wrongElement "[Z" .boolean .short)),
          Frame.mk ⟨Switches.world, ()⟩ []) := by
  obtain ⟨body, name⟩ := Switches.contents
  -- no more has to be known of the world
  generalize Switches.world = world at body name
  have accesses := primitive_accesses Switches.runner ⟨0⟩ ⟨world, ()⟩ Switches.array _ body
  refine ⟨body, ?_, ?_, ?_⟩
  · obtain ⟨_, succeeds, _⟩ := (accesses .byte 1).1 (.int 259) [] rfl
    obtain ⟨later, stored, _, loads⟩ := succeeds ⟨by decide, rfl⟩
    exact ⟨later, stored, loads []⟩
  · obtain ⟨_, _, fails⟩ := (accesses .byte 2).1 (.int 259) [] rfl
    exact fails fun serves => absurd serves.spans (by decide)
  · obtain ⟨_, _, fails⟩ := (accesses .short 1).1 (.int 259) [] rfl
    rw [name] at fails
    exact fails fun serves => absurd serves.cells (by decide)

end JavaMachine
