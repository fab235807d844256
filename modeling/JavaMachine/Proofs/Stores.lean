import JavaMachine.Proofs.Access
import JavaMachine.Proofs.Operands
import JavaMachine.Proofs.Session

/-!
# Stores

An operation stores at most one value, in a field of an object, in a static field of a class or as
an element of a reference array, and what it stores can be told from the world in which it is asked
for. An invariant that holds of all that stores leave behind therefore holds of all worlds that are
met.
-/

namespace JavaMachine

/-- Where fields are: in an object, or, the static ones, in a class. -/
inductive Holder where
  | object (id : ObjectId)
  | type (id : ClassId)
  deriving DecidableEq

/-- Where a field is that is read or written through the machine, if the receiver is as the field
asks for it. -/
def FieldSlot.holder? (slot : FieldSlot) (receiver : Option ObjectId) : Option Holder :=
  match slot.field.isStatic, receiver with
  | true, none => some (.type slot.field.owner)
  | false, some object => some (.object object)
  | _, _ => none

theorem FieldSlot.holder?_eq_some {slot : FieldSlot} {receiver : Option ObjectId}
    {holder : Holder} : slot.holder? receiver = some holder ↔
      slot.field.isStatic ∧ receiver = none ∧ holder = .type slot.field.owner ∨
      ¬ slot.field.isStatic ∧ ∃ object, receiver = some object ∧ holder = .object object := by
  unfold holder?
  cases slot.field.isStatic with
  | true => cases receiver <;> simp [eq_comm]
  | false => cases receiver <;> simp [eq_comm]

namespace World

/-- The value of a field. -/
def fetch (world : World) (slot : FieldSlot) : Holder → Except Error Value
  | .object id => world.getField id (some slot)
  | .type id => world.getStatic id (some slot)

/-- The world with another value in a field. -/
def store (world : World) (slot : FieldSlot) (value : Value) : Holder → Except Error World
  | .object id => world.putField id (some slot) value
  | .type id => world.putStatic id (some slot) value

/-- The operation, asked for in the world, stores a value in a field if it gets that far. The world
that is given besides is the one in which the field is known; it is another one only if the field is
named by a constant. -/
inductive Attempts (world : World) : Operation → World → Holder → FieldSlot → Value → Prop where
  | putField (object : ObjectId) (slot : FieldSlot) (value : Value) :
      Attempts world (.putField object (some slot) value) world (.object object) slot value
  | putStatic (type : ClassId) (slot : FieldSlot) (value : Value) :
      Attempts world (.putStatic type (some slot) value) world (.type type) slot value
  | writeField {slot : FieldSlot} {receiver : Option ObjectId} {holder : Holder} (value : Value)
      (reaches : slot.holder? receiver = some holder) :
      Attempts world (.writeField (some slot) receiver value) world holder slot
        (value.narrow slot.field.valueType)
  | putstatic {current : ClassId} {index : UInt16} {slot : FieldSlot} {later : World}
      {holder : Holder} (value : Value) (stack : OperandStack)
      (resolves : runFrom world (resolveField current index) = (.ok (some slot), later))
      (reaches : slot.holder? none = some holder) :
      Attempts world (.execute current (.putstatic index) (value :: stack)) later holder slot
        (value.narrow slot.field.valueType)
  | putfield {current : ClassId} {index : UInt16} {slot : FieldSlot} {later : World}
      {object : ObjectId} {holder : Holder} (value : Value) (stack : OperandStack)
      (resolves : runFrom world (resolveField current index) = (.ok (some slot), later))
      (reaches : slot.holder? (some object) = some holder) :
      Attempts world
        (.execute current (.putfield index) (value :: .reference (some object) :: stack)) later
        holder slot (value.narrow slot.field.valueType)

/-- The operation, asked for in the world, stores an element in a reference array if it gets that
far. An instruction gets there only if the array admits the element. -/
inductive Fills (world : World) : Operation → ObjectId → Int32 → Option ObjectId → Prop where
  | putReference (array : ObjectId) (index : Int32) (element : Option ObjectId) :
      Fills world (.putReference array index element) array index element
  | aastore {array : ObjectId} {element : Option ObjectId} (current : ClassId) (index : Int32)
      (stack : OperandStack) (admits : FrameM.checkStore world array element = .ok ()) :
      Fills world (.execute current .aastore
        (.reference element :: .int index :: .reference (some array) :: stack)) array index element

end World

/-! ### Access through the machine -/

/-- The error for a receiver that is not as the field asks for it. -/
def FieldSlot.refusal (slot : FieldSlot) (use : NullUse) : Error :=
  if slot.field.isStatic then .linkage (.instanceFieldExpected slot.field.key)
  else .runtime (.nullPointer use)

section Through

variable {Client : Type} (run : Runner Client) (slot : FieldSlot) (receiver : Option ObjectId)

theorem writeField_eq (value : Value) : writeField run (some slot) receiver value = (do
    initializeClass run slot.field.owner
    match slot.holder? receiver with
    | some holder => MachineM.onWorld (World.change fun world =>
        world.store slot (value.narrow slot.field.valueType) holder)
    | none => throw (slot.refusal (.assignField slot.field.name))) := by
  unfold writeField FieldSlot.holder? FieldSlot.refusal
  dsimp only
  cases slot.field.isStatic with
  | true => cases receiver <;> rfl
  | false => cases receiver <;> rfl

end Through

/-! ### Invariants of stores -/

variable {Client : Type} {rule : World → Operation → Prop} {holds : World → Prop}
variable {bond : World → World → Prop} {fine : World → Holder → FieldSlot → Value → Prop}

/-- Stores in fields that are fine keep the invariant, what is fine stays fine, and the rule allows
operations only that attempt what is fine. The elements that are stored in arrays as the rule allows
keep the invariant too. -/
structure Governs (rule : World → Operation → Prop) (holds : World → Prop)
    (fine : World → Holder → FieldSlot → Value → Prop)
    (bond : World → World → Prop := World.Endures) : Prop where
  binds : ∀ {world later}, world.Develops later → bond world later := by
    exact fun develops => develops.grows.endures
  grants : ∀ {world operation later holder slot value}, HoldsCleanly holds later →
    rule world operation → world.Attempts operation later holder slot value →
      fine later holder slot value
  endures : ∀ {world later holder slot value}, HoldsCleanly holds world → bond world later →
    fine world holder slot value → fine later holder slot value
  stores : ∀ {world later holder slot value}, HoldsCleanly holds world →
    fine world holder slot value → world.store slot value holder = .ok later → holds later
  fills : ∀ {world later operation array index element}, HoldsCleanly holds world →
    rule world operation → world.Fills operation array index element →
      world.putReference array index element = .ok later → holds later

theorem World.develops_store {world later : World} {slot : FieldSlot} {value : Value}
    {holder : Holder} (sound : world.Sound) (stored : world.store slot value holder = .ok later) :
    world.Develops later := by
  cases holder with
  | object id =>
      have develops := develops_putField id (some slot) value sound
      rwa [runFrom_change_ok stored] at develops
  | type id =>
      have develops := develops_putStatic id (some slot) value sound
      rwa [runFrom_change_ok stored] at develops

namespace Governs

variable [Steady bond holds] (governs : Governs rule holds fine bond)
variable {machine : Machine (Watched Client)} {run : Runner (Watched Client)}
include governs

/-- A store that is fine keeps the invariant, even if it is refused. -/
theorem store_observes {slot : FieldSlot} {value : Value} {holder : Holder}
    (allowed : HoldsCleanly holds machine.world → fine machine.world holder slot value) :
    Observes bond rule holds machine (runFrom machine (MachineM.onWorld
      (World.change fun world => world.store slot value holder))).2 := by
  cases stored : machine.world.store slot value holder with
  | error error =>
      rw [runFrom_onWorld (World.runFrom_change_error stored)]
      exact Trail.refl machine
  | ok later =>
      rw [runFrom_onWorld (World.runFrom_change_ok stored)]
      apply Observes.of_world
      intro before
      have develops := World.develops_store before.clean.sound stored
      exact ⟨⟨develops.toLasts.clean before.clean, governs.stores before (allowed before) stored⟩,
        governs.binds develops⟩

/-- A field is written through the machine. -/
theorem writeField_observes (follows : run.Follows (Observes bond rule holds)) {slot : FieldSlot}
    {receiver : Option ObjectId} {value : Value}
    (allowed : HoldsCleanly holds machine.world → ∀ holder, slot.holder? receiver = some holder →
      fine machine.world holder slot (value.narrow slot.field.valueType)) :
    Observes bond rule holds machine
      (runFrom machine (writeField run (some slot) receiver value)).2 := by
  have initializes := (follows.initializes slot.field.owner).leads machine
  rw [writeField_eq]
  rcases ends : runFrom machine (initializeClass run slot.field.owner) with ⟨error | _, middle⟩
  · rw [ends] at initializes
    rw [runFrom_bind_error ends]
    exact initializes
  · rw [ends] at initializes
    rw [runFrom_bind_ok ends]
    cases reaches : slot.holder? receiver with
    | none => exact initializes
    | some holder =>
        exact initializes.bind (List.suffix_refl _) fun before _ endures =>
          governs.store_observes fun _ =>
            governs.endures before endures (allowed before holder reaches)

end Governs

namespace FrameM

variable {frame middle : Frame Client} {current : ClassId} {index : UInt16} {static : Bool}
variable {slot : FieldSlot}

/-- The field to which a constant leads is the one that is resolved, and it is static as asked. -/
theorem fieldAt_ok (leads : runFrom frame (fieldAt current index static) = (.ok slot, middle)) :
    runFrom frame.machine.world (World.resolveField current index) =
        (.ok (some slot), middle.machine.world) ∧
      slot.field.isStatic = static ∧ middle.stack = frame.stack := by
  obtain ⟨found, between, resolves, leads⟩ := exists_of_bind_ok leads
  obtain ⟨gives, rfl⟩ := onWorld_ok resolves
  cases found with
  | none => cases leads
  | some own =>
      dsimp only at leads
      split at leads
      next same =>
        cases leads
        exact ⟨Prod.ext gives rfl, same, rfl⟩
      next =>
        split at leads
        · cases leads
        · cases leads

/-- An array that is popped was on top of the stack. -/
theorem popArray_ok {array : ObjectId} (ends : runFrom frame popArray = (.ok array, middle)) :
    frame.stack = .reference (some array) :: middle.stack ∧ middle.machine = frame.machine := by
  obtain ⟨popped, between, pops, leads⟩ := exists_of_bind_ok ends
  obtain ⟨pops, kept⟩ := onStack_ends.1 pops
  cases popped with
  | none => cases leads
  | some own =>
      cases leads
      exact ⟨OperandStack.popReference_ok pops, kept⟩

/-- Without an array there is nothing on which more than the stack depends. -/
theorem popArray_error {error : Error} (ends : runFrom frame popArray = (.error error, middle)) :
    middle.machine = frame.machine := by
  rcases pops : runFrom frame (onStack OperandStack.popReference) with ⟨other | popped, between⟩
  all_goals obtain ⟨_, kept⟩ := onStack_ends.1 pops
  · rw [popArray, runFrom_bind_error pops] at ends
    cases ends
    exact kept
  · rw [popArray, runFrom_bind_ok pops] at ends
    cases popped with
    | none =>
        cases ends
        exact kept
    | some own => cases ends

/-- Once the operands are taken off the stack an element is stored if the array admits it. -/
theorem runFrom_checkStore (array : ObjectId) (index : Int32) (element : Option ObjectId) :
    runFrom frame (do
      ofExcept (checkStore (← world) array element)
      onWorld (World.change fun world => world.putReference array index element)) =
    match checkStore frame.machine.world array element with
    | .error error => (.error error, frame)
    | .ok () =>
        match frame.machine.world.putReference array index element with
        | .error error => (.error error, frame)
        | .ok later => (.ok (), { frame with machine := { frame.machine with world := later } }) := by
  have looks : runFrom frame (world : FrameM Client World) = (.ok frame.machine.world, frame) :=
    rfl
  rw [runFrom_bind_ok looks]
  cases checked : checkStore frame.machine.world array element with
  | error error => rfl
  | ok _ =>
      have passes : runFrom frame (ofExcept (.ok ()) : FrameM Client Unit) = (.ok (), frame) := rfl
      rw [runFrom_bind_ok passes]
      cases stored : frame.machine.world.putReference array index element with
      | error error =>
          exact onMachine_ends.2 ⟨runFrom_onWorld (World.runFrom_change_error stored), rfl⟩
      | ok later =>
          exact onMachine_ends.2 ⟨runFrom_onWorld (World.runFrom_change_ok stored), rfl⟩

/-- An element is stored where the operands on the stack say, if the array admits it. Where that
fails nothing but the stack is changed. -/
theorem storeReference_cases (frame : Frame Client) :
    (∃ error middle, runFrom frame storeReference = (.error error, middle) ∧
      middle.machine = frame.machine) ∨
    ∃ element index array stack later,
      frame.stack = .reference element :: .int index :: .reference (some array) :: stack ∧
      checkStore frame.machine.world array element = .ok () ∧
      frame.machine.world.putReference array index element = .ok later ∧
      runFrom frame storeReference =
        (.ok (), ⟨{ frame.machine with world := later }, stack⟩) := by
  rcases pops : runFrom frame (onStack OperandStack.popReference) with ⟨error | element, first⟩
  all_goals obtain ⟨popped, kept⟩ := onStack_ends.1 pops
  · exact .inl ⟨error, first, runFrom_bind_error pops, kept⟩
  rw [storeReference, runFrom_bind_ok pops]
  rcases pops : runFrom first (onStack OperandStack.popInt) with ⟨error | index, second⟩
  all_goals obtain ⟨poppedToo, keptToo⟩ := onStack_ends.1 pops
  · exact .inl ⟨error, second, runFrom_bind_error pops, keptToo.trans kept⟩
  rw [runFrom_bind_ok pops]
  rcases pops : runFrom second popArray with ⟨error | array, third⟩
  · exact .inl ⟨error, third, runFrom_bind_error pops,
      (popArray_error pops).trans (keptToo.trans kept)⟩
  obtain ⟨below, keptLast⟩ := popArray_ok pops
  have same : third.machine = frame.machine := keptLast.trans (keptToo.trans kept)
  have operands : frame.stack =
      .reference element :: .int index :: .reference (some array) :: third.stack := by
    rw [OperandStack.popReference_ok popped, OperandStack.popInt_ok poppedToo, below]
  rw [runFrom_bind_ok pops, runFrom_checkStore, same]
  cases checked : checkStore frame.machine.world array element with
  | error error => exact .inl ⟨error, third, rfl, same⟩
  | ok _ =>
      cases stored : frame.machine.world.putReference array index element with
      | error error => exact .inl ⟨error, third, rfl, same⟩
      | ok later =>
          exact .inr ⟨element, index, array, third.stack, later, operands, checked, stored, rfl⟩

end FrameM

/-- An instruction that stores first finds its field and takes the value off the stack. -/
theorem FrameM.stored_observes [Steady bond holds] {machine : Machine (Watched Client)}
    {static : Bool} {rest : FieldSlot → Value → FrameM (Watched Client) Unit} (current : ClassId) (index : UInt16)
    (stack : OperandStack)
    (keeps : ∀ slot value below (middle : Machine (Watched Client)), stack = value :: below →
      runFrom machine.world (World.resolveField current index) = (.ok (some slot), middle.world) →
        Observes bond rule holds machine middle →
          Observes bond rule holds machine (runFrom ⟨middle, below⟩ (rest slot value)).2.machine) :
    Observes bond rule holds machine (runFrom (Frame.mk machine stack) (do
      let slot ← fieldAt current index static
      let value ← onStack OperandStack.pop
      rest slot value)).2.machine := by
  have resolves : Observes bond rule holds machine _ :=
    (fieldAt_follows current index static).leads ⟨machine, stack⟩
  rcases ends : runFrom (Frame.mk machine stack) (fieldAt current index static) with
    ⟨error | slot, middle⟩
  all_goals rw [ends] at resolves
  · rw [runFrom_bind_error ends]
    exact resolves
  rw [runFrom_bind_ok ends]
  obtain ⟨known, _, stackKept⟩ := fieldAt_ok ends
  rcases pops : runFrom middle (onStack OperandStack.pop) with ⟨error | value, last⟩
  · rw [runFrom_bind_error pops]
    exact (onStack_ends.1 pops).2 ▸ resolves
  obtain ⟨popped, same⟩ := onStack_ends.1 pops
  rw [runFrom_bind_ok pops]
  rw [← same] at known resolves
  exact keeps slot value last.stack last.machine
    (stackKept.symm.trans (OperandStack.runFrom_pop_ok popped)) known resolves

namespace Governs

variable [Steady bond holds] (governs : Governs rule holds fine bond)
variable {machine : Machine (Watched Client)} {run : Runner (Watched Client)}
include governs

/-- A field is written through the machine by an operation that the rule allows. -/
theorem attempted_observes (follows : run.Follows (Observes bond rule holds))
    {middle : Machine (Watched Client)} (before : Observes bond rule holds machine middle)
    {operation : Operation} (allowed : rule machine.world operation) {slot : FieldSlot}
    {receiver : Option ObjectId} {value : Value}
    (attempts : ∀ holder, slot.holder? receiver = some holder → machine.world.Attempts operation
      middle.world holder slot (value.narrow slot.field.valueType)) :
    Observes bond rule holds machine
      (runFrom middle (writeField run (some slot) receiver value)).2 :=
  before.bind ((writeField_follows follows.lengthens (some slot) receiver value).leads middle)
    fun _ _ _ => governs.writeField_observes follows fun holding holder reaches =>
      governs.grants holding allowed (attempts holder reaches)

theorem putStatic_observes (follows : run.Follows (Observes bond rule holds)) (current : ClassId)
    (index : UInt16) (stack : OperandStack)
    (allowed : rule machine.world (.execute current (.putstatic index) stack)) :
    Observes bond rule holds machine
      (runFrom ⟨machine, stack⟩ (FrameM.putStatic run current index)).2.machine := by
  refine FrameM.stored_observes current index stack
    fun slot value below middle same known before => ?_
  subst same
  exact governs.attempted_observes follows before allowed fun holder reaches =>
    .putstatic value below known reaches

theorem putField_observes (follows : run.Follows (Observes bond rule holds)) (current : ClassId)
    (index : UInt16) (stack : OperandStack)
    (allowed : rule machine.world (.execute current (.putfield index) stack)) :
    Observes bond rule holds machine
      (runFrom ⟨machine, stack⟩ (FrameM.putField run current index)).2.machine := by
  refine FrameM.stored_observes current index stack
    fun slot value below middle same known before => ?_
  -- the receiver lies below the value; without one nothing is stored
  rcases pops : runFrom (Frame.mk middle below) (FrameM.onStack OperandStack.popReference) with
    ⟨error | reference, last⟩
  all_goals obtain ⟨popped, kept⟩ := FrameM.onStack_ends.1 pops
  · rw [runFrom_bind_error pops]
    exact kept ▸ before
  rw [runFrom_bind_ok pops]
  cases reference with
  | none => exact kept ▸ before
  | some object =>
      have operands : below = .reference (some object) :: last.stack :=
        OperandStack.popReference_ok popped
      subst same operands
      rw [← show last.machine = middle from kept] at known before
      exact governs.attempted_observes follows before allowed fun holder reaches =>
        .putfield value last.stack known reaches

omit [Steady bond holds] in
/-- An element that is stored as the rule allows keeps the invariant. -/
theorem fill_observes {operation : Operation} (allowed : rule machine.world operation)
    {array : ObjectId} {index : Int32} {element : Option ObjectId} {later : World}
    (filling : machine.world.Fills operation array index element)
    (stored : machine.world.putReference array index element = .ok later) :
    Observes bond rule holds machine { machine with world := later } := by
  apply Observes.of_world
  intro before
  have develops := World.develops_putReference array index element before.clean.sound
  rw [World.runFrom_change_ok stored] at develops
  exact ⟨⟨develops.toLasts.clean before.clean, governs.fills before allowed filling stored⟩,
    governs.binds develops⟩

theorem storeReference_observes (current : ClassId) (stack : OperandStack)
    (allowed : rule machine.world (.execute current .aastore stack)) :
    Observes bond rule holds machine
      (runFrom (Frame.mk machine stack) FrameM.storeReference).2.machine := by
  obtain ⟨error, middle, fails, same⟩ | ⟨element, index, array, below, later, operands, admits,
    stored, succeeds⟩ := FrameM.storeReference_cases (Frame.mk machine stack)
  · rw [fails, same]
    exact Trail.refl machine
  · rw [succeeds]
    dsimp only at operands
    subst operands
    exact governs.fill_observes allowed (.aastore current index below admits) stored

/-- Whatever stores, if the rule allows it, keeps the invariant. -/
theorem storesKeep : StoresKeep bond rule holds := by
  intro Client run follows operation stores machine allowed
  have storing (slot : FieldSlot) (value : Value) (holder : Holder)
      (attempts : machine.world.Attempts operation machine.world holder slot value) :
      Observes bond rule holds machine (runFrom machine (MachineM.onWorld
        (World.change fun world => world.store slot value holder))).2 :=
    governs.store_observes fun holding => governs.grants holding allowed attempts
  cases operation with
  | putField object slot value =>
      cases slot with
      | none => exact Trail.refl machine
      | some slot => exact storing slot value (.object object) (.putField object slot value)
  | putStatic type slot value =>
      cases slot with
      | some slot => exact storing slot value (.type type) (.putStatic type slot value)
      | none =>
          obtain ⟨error, refused⟩ := World.putStatic_none machine.world type value
          have stays : runFrom machine (MachineM.onWorld
              (World.change fun world => world.putStatic type none value)) =
                (.error error, machine) :=
            runFrom_onWorld (World.runFrom_change_error refused)
          exact congrArg Prod.snd stays ▸ Trail.refl machine
  | writeField slot receiver value =>
      cases slot with
      | none => exact Trail.refl machine
      | some slot =>
          exact governs.writeField_observes follows fun holding holder reaches =>
            governs.grants holding allowed (.writeField value reaches)
  | execute current instruction stack =>
      cases instruction with
      | putstatic index => exact governs.putStatic_observes follows current index stack allowed
      | putfield index => exact governs.putField_observes follows current index stack allowed
      | aastore => exact governs.storeReference_observes current stack allowed
      | _ => exact absurd stores not_false
  | putReference array index element =>
      cases stored : machine.world.putReference array index element with
      | error error =>
          have stays : runFrom machine (MachineM.onWorld
              (World.change fun world => world.putReference array index element)) =
                (.error error, machine) :=
            runFrom_onWorld (World.runFrom_change_error stored)
          exact congrArg Prod.snd stays ▸ Trail.refl machine
      | ok later =>
          have leads : runFrom machine (MachineM.onWorld
              (World.change fun world => world.putReference array index element)) =
                (.ok (), { machine with world := later }) :=
            runFrom_onWorld (World.runFrom_change_ok stored)
          exact congrArg Prod.snd leads ▸
            governs.fill_observes allowed (.putReference array index element) stored
  | _ => exact absurd stores not_false

end Governs
end JavaMachine
