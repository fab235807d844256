import JavaMachine.Proofs.Contents
import JavaMachine.Proofs.Undisturbed

/-!
# What reference arrays hold

No reference array comes to hold an element that its class does not admit. The instruction that
stores elements looks at the classes of both before it does anything, and an array that is allocated
with its elements is filled with arrays of its component class. Nothing that happens later takes
back that an element is admitted.
-/

namespace JavaMachine
namespace World

variable {world later : World} {array : ObjectId} {index : Int32} {element : Option ObjectId}

/-! ### The store of an element -/

/-- The object is a reference array with a place of the index, and its class admits the element. -/
structure Accepts (world : World) (array : ObjectId) (index : Int32) (element : Option ObjectId) :
    Prop where
  place : ∃ elements, (world.object array).body = .references elements ∧
    0 ≤ index.toInt ∧ index.toInt.toNat < elements.size
  admits : ∀ object, element = some object → ∃ component,
    (world.typeOf array).component? = some component ∧
      world.isAssignable (world.object object).type component

theorem checkStore_eq_ok : FrameM.checkStore world array element = .ok () ↔
    ∀ object, element = some object → ∃ component,
      (world.typeOf array).component? = some component ∧
        world.isAssignable (world.object object).type component := by
  cases element with
  | none => exact iff_of_true rfl nofun
  | some own =>
      unfold FrameM.checkStore
      dsimp only
      cases known : (world.typeOf array).component? with
      | none => simp
      | some component => simp

theorem exists_putReference : (∃ later, world.putReference array index element = .ok later) ↔
    ∃ elements, (world.object array).body = .references elements ∧
      0 ≤ index.toInt ∧ index.toInt.toNat < elements.size := by
  constructor
  · rintro ⟨later, stored⟩
    obtain ⟨changed, put, rfl⟩ := stored_of_map stored
    obtain ⟨elements, place, body, inside, _⟩ := Object.putReference_eq_ok.1 put
    obtain ⟨notNegative, small, _⟩ := checkIndex_eq_ok.1 inside
    exact ⟨elements, body, notNegative, small⟩
  · rintro ⟨elements, body, notNegative, small⟩
    have inside := checkIndex_eq_ok.2 ⟨notNegative, small, rfl⟩
    rw [putReference, Object.putReference_eq_ok.2 ⟨elements, _, body, inside, rfl⟩]
    exact ⟨_, rfl⟩

theorem accepts_iff : world.Accepts array index element ↔
    FrameM.checkStore world array element = .ok () ∧
      ∃ later, world.putReference array index element = .ok later := by
  rw [checkStore_eq_ok, exists_putReference]
  exact ⟨fun accepts => ⟨accepts.admits, accepts.place⟩, fun ⟨admits, place⟩ => ⟨place, admits⟩⟩

/-- An element that is stored after the check suits the array as the others do. -/
theorem Guarded.putReference (guarded : world.Guarded) (sound : world.Sound)
    (vetted : world.Vetted) (admits : FrameM.checkStore world array element = .ok ())
    (present : ∀ object, element = some object → object.index < world.objects.size)
    (stored : world.putReference array index element = .ok later) : later.Guarded := by
  obtain ⟨changed, put, rfl⟩ := stored_of_map stored
  obtain ⟨elements, place, body, _, rfl⟩ := Object.putReference_eq_ok.1 put
  refine guarded.setObject sound vetted (fun _ => by simp [Object.lasting, body]) fun there => ?_
  obtain ⟨component, known, suit⟩ := (guarded array there).elements elements body
  refine guards_of_component? known fun object among => ?_
  rcases Array.mem_or_eq_of_mem_setIfInBounds among with old | new
  · exact suit object old
  · obtain ⟨own, same, assignable⟩ := checkStore_eq_ok.1 admits object new.symm
    cases known.symm.trans same
    exact ⟨present object new.symm, assignable⟩

/-- Stores in fields do not touch arrays. -/
theorem Guarded.store (guarded : world.Guarded) (sound : world.Sound) (vetted : world.Vetted)
    {slot : FieldSlot} {value : Value} {holder : Holder}
    (stored : world.store slot value holder = .ok later) : later.Guarded := by
  cases holder with
  | object id =>
      obtain ⟨changed, put, rfl⟩ := stored_of_map stored
      obtain ⟨_, fields, attachment, body, _, rfl⟩ := Object.putField_eq_ok.1 put
      have lasting : Object.lasting { world.object id with
          body := .record (fields.setIfInBounds slot.offset value) attachment } =
            (world.object id).lasting := by simp [Object.lasting, body]
      exact guarded.setObject sound vetted (fun _ => lasting) fun present =>
        (guarded id present).of_body lasting fun _ same => by cases same
  | type id =>
      obtain ⟨_, _, _, rfl⟩ := putStatic_eq_ok.1 stored
      exact guarded.of_objects sound vetted
        (fun other _ => (keeps_withStatic world id slot.offset value).lasting other) rfl

/-! ### Runs -/

instance : Steadfast Guarded where
  lasts clean _ leaves := leaves.guards clean.sound clean.vetted
  note _ _ clean guarded := guarded.of_objects clean.sound clean.vetted (fun _ _ => rfl) rfl
  move clean _ := (LeavesContents.withState _ _ _).guards clean.sound clean.vetted

/-- Only objects that are there are stored in arrays, and by instructions only: what is stored past
them has been checked like there. -/
structure StoresObjects (world : World) (operation : Operation) : Prop where
  present : ∀ array index object, world.Fills operation array index (some object) →
    object.index < world.objects.size
  checked : ∀ array index element, operation = .putReference array index element →
    FrameM.checkStore world array element = .ok ()

theorem Fills.checked {operation : Operation} (fills : world.Fills operation array index element)
    (allowed : world.StoresObjects operation) :
    FrameM.checkStore world array element = .ok () := by
  cases fills with
  | putReference => exact allowed.checked array index element rfl
  | aastore _ _ _ admits => exact admits

theorem governs_guarded : Governs StoresObjects Guarded fun _ _ _ _ => True where
  grants _ _ _ := trivial
  endures _ _ _ := trivial
  stores holding _ stored := holding.holds.store holding.clean.sound holding.clean.vetted stored
  fills holding allowed fills stored :=
    holding.holds.putReference holding.clean.sound holding.clean.vetted (fills.checked allowed)
      (fun _ same => allowed.present _ _ _ (same ▸ fills)) stored

theorem guarded_initial (sources : List Source) : (World.initial sources).Guarded := by
  intro object present
  simp [World.initial] at present

end World

namespace FrameM

variable {Client : Type} {machine : Machine Client}

/-- Where the instruction that stores an element fails it changes nothing but the stack. With its
operands there it fails unless they name a reference array that accepts the element. -/
theorem execute_aastore (run : Runner Client) (current : ClassId) :
    (∀ stack error later, runFrom (Frame.mk machine stack) (execute run current .aastore) =
      (.error error, later) → later.machine = machine) ∧
    ∀ element index array stack,
      (runFrom (Frame.mk machine (.reference element :: .int index :: .reference array :: stack))
        (execute run current .aastore)).1 = .ok () ↔
          ∃ target, array = some target ∧ machine.world.Accepts target index element := by
  constructor
  · intro stack error later fails
    obtain ⟨_, _, ends, same⟩ | ⟨_, _, _, _, _, _, _, _, ends⟩ :=
      storeReference_cases (Frame.mk machine stack)
    · cases ends.symm.trans fails
      exact same
    · cases ends.symm.trans fails
  · intro element index array stack
    cases array with
    | none => exact iff_of_false nofun nofun
    | some target =>
        have operands : runFrom (Frame.mk machine
            (.reference element :: .int index :: .reference (some target) :: stack))
              (execute run current .aastore) = runFrom (Frame.mk machine stack) (do
                ofExcept (checkStore (← world) target element)
                onWorld (World.change fun world => world.putReference target index element)) := rfl
        rw [operands, runFrom_checkStore]
        simp only [Option.some.injEq, exists_eq_left', World.accepts_iff]
        cases checkStore machine.world target element with
        | error error => simp
        | ok _ =>
            cases machine.world.putReference target index element with
            | error error => simp
            | ok later => simp

end FrameM

/-- In all worlds that are met each element of a reference array is an object that may stand where
the component of the array's class is expected. Where the instruction that stores elements fails no
array is changed, and it fails for want of an array, of a place or of such an element only. -/
theorem Session.elements_assignable {session : Session}
    (abides : session.Abides World.StoresObjects) {world : World} (among : world ∈ session.worlds) :
    (∀ array elements, array.index < world.objects.size →
      (world.object array).body = .references elements → ∃ component,
        (world.typeOf array).component? = some component ∧ ∀ element, some element ∈ elements →
          element.index < world.objects.size ∧
            world.isAssignable (world.object element).type component) ∧
    ∀ {Client : Type} (run : Runner Client) (client : Client) (current : ClassId),
      (∀ stack error later, runFrom (Frame.mk ⟨world, client⟩ stack)
        (FrameM.execute run current .aastore) = (.error error, later) →
          later.machine = ⟨world, client⟩) ∧
      ∀ element index array stack, (runFrom (Frame.mk ⟨world, client⟩
        (.reference element :: .int index :: .reference array :: stack))
          (FrameM.execute run current .aastore)).1 = .ok () ↔
            ∃ target, array = some target ∧ world.Accepts target index element := by
  refine ⟨fun array elements present body => ?_, fun run _ => FrameM.execute_aastore run⟩
  have guarded := (Session.holds_of_abides World.governs_guarded.storesKeep abides
    (World.guarded_initial _) world among).holds
  obtain ⟨component, known, suit⟩ := (guarded array present).elements elements body
  exact ⟨component, known, fun element among =>
    ⟨(suit element among).present, (suit element among).assignable⟩⟩

/-! ### A shelf -/

namespace Shelf

set_option maxRecDepth 20000

/-- An array class with the component `Book`. -/
def files : List (String × ClassFile) :=
  [("java/lang/Object", .withoutMembers 0x0021 "java/lang/Object" "" []),
    ("Book", .withoutMembers 0x0021 "Book" "java/lang/Object" [])]

def bookClass : ClassId := ⟨0⟩
def root : ClassId := ⟨1⟩
def books : ClassId := ⟨2⟩

def book : ObjectId := ⟨0⟩
def stone : ObjectId := ⟨1⟩
def shelf : ObjectId := ⟨2⟩

/-- The operands for putting an object on the shelf. -/
def putting (object : ObjectId) : OperandStack :=
  [.reference (some object), .int 0, .reference (some shelf)]

/-- Makes a `Book` and an object that is none, and tries to put both on a shelf for books. -/
def session : Session where
  callback _ _ := .done (.ok none)
  depth := 0
  program := do
    discard (Program.ask (.load .bootstrap "[LBook;"))
    discard (Program.ask (.allocateInstance bookClass .none))
    discard (Program.ask (.allocateInstance root .none))
    discard (Program.ask (.allocateReferences books 1))
    discard (Program.ask (.execute bookClass .aastore (putting book)))
    Program.ask (.execute bookClass .aastore (putting stone))
  sources := [.holding files]
  client := ()

/-- The world after that. -/
def world : World := session.last.world

def runner : Runner Unit := fun _ _ => pure none

/-- Whether a step stores at most an object that is there, and does so by an instruction. -/
def suitable (step : Step) : Bool :=
  match step.operation with
  | .execute _ _ (.reference (some object) :: _) => object.index < step.world.objects.size
  | .load _ _ | .allocateInstance _ _ | .allocateReferences _ _ => true
  | _ => false

theorem steps_suitable : session.steps.all suitable = true := by
  decide +kernel

theorem abides : session.Abides World.StoresObjects := by
  intro step among
  have fine := List.all_eq_true.1 steps_suitable step among
  obtain ⟨before, operation⟩ := step
  constructor
  · intro array index object fills
    cases fills with
    | putReference => cases fine
    | aastore => exact of_decide_eq_true fine
  · rintro array index element rfl
    cases fine

theorem contents : shelf.index < world.objects.size ∧
    (world.object shelf).body = .references #[some book] ∧
    (world.typeOf shelf).component? = some bookClass ∧
    world.isAssignable (world.object stone).type bookClass = false := by
  decide +kernel

end Shelf

/-- The `Book` is on the shelf, and the other object cannot be put there. -/
theorem Session.elements_assignable_shelf :
    Shelf.session.Abides World.StoresObjects ∧ Shelf.world ∈ Shelf.session.worlds ∧
    (Shelf.world.object Shelf.shelf).body = .references #[some Shelf.book] ∧
    Shelf.world.isAssignable (Shelf.world.object Shelf.book).type Shelf.bookClass ∧
    ∃ error stack, runFrom (Frame.mk ⟨Shelf.world, ()⟩ (Shelf.putting Shelf.stone))
      (FrameM.execute Shelf.runner Shelf.bookClass .aastore) =
        (.error error, ⟨⟨Shelf.world, ()⟩, stack⟩) := by
  have met : Shelf.world ∈ Shelf.session.worlds := Shelf.session.last_mem_worlds
  obtain ⟨admitted, stores⟩ := Session.elements_assignable Shelf.abides met
  obtain ⟨fails, succeeds⟩ := stores Shelf.runner () Shelf.bookClass
  obtain ⟨present, body, known, foreign⟩ := Shelf.contents
  refine ⟨Shelf.abides, met, body, ?_, ?_⟩
  · obtain ⟨component, same, suit⟩ := admitted Shelf.shelf _ present body
    cases known.symm.trans same
    exact (suit Shelf.book (by simp)).2
  · rcases ends : runFrom (Frame.mk ⟨Shelf.world, ()⟩ (Shelf.putting Shelf.stone))
      (FrameM.execute Shelf.runner Shelf.bookClass .aastore) with ⟨error | _, later⟩
    · exact ⟨error, later.stack, by rw [← fails (Shelf.putting Shelf.stone) error later ends]⟩
    · obtain ⟨target, same, accepts⟩ :=
        (succeeds (some Shelf.stone) 0 (some Shelf.shelf) []).1 (congrArg Prod.fst ends)
      cases same
      obtain ⟨component, other, assignable⟩ := accepts.admits _ rfl
      cases known.symm.trans other
      cases foreign.symm.trans assignable

end JavaMachine
