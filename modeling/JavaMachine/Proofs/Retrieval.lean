import JavaMachine.Proofs.Contents

/-!
# Storing in a field and reading it back

A value can be stored in a field of a holder that has the field if it fits and the holder is not an
array. Then it can be read back, and nothing else has changed. A holder never lacks a place for a
field that it has, and as long as stores go to holders that have the field, the value there fits.
-/

namespace JavaMachine

namespace World

variable {world later : World} {slot : FieldSlot} {value : Value} {holder : Holder}

/-- What lies in a place of a holder. -/
def content? (world : World) : Holder → Nat → Option Value
  | .object object, place => (world.object object).fields?.bind fun fields => fields[place]?
  | .type id, place => (world.type id).static[place]?

/-- Classes and instances have values of fields, arrays do not. -/
def HoldsFields (world : World) : Holder → Prop
  | .object object => (world.object object).fields?.isSome
  | .type _ => True

/-- The class behind a static field that it declares. -/
theorem Sound.hosts_of_hasField {id : ClassId} (sound : world.Sound)
    (has : world.HasField slot (.type id)) : world.Hosts id slot := by
  obtain ⟨static, name, descriptor, declares⟩ := has
  obtain ⟨key, found⟩ := sound.find?_static_of_declared declares static
  have owned := (sound.hosted_fields id).owned key slot found
  exact ⟨linked_of_holds (.static found rfl), static, owned.2⟩

/-- The place of a field has a value that the field admits. -/
theorem Contains.content? {admission : Admission} (contains : world.Contains admission)
    (sound : world.Sound) (has : world.HasField slot holder) (holds : world.HoldsFields holder) :
    ∃ value, world.content? holder slot.offset = some value ∧
      (admission.instances slot.field value ∨
        ∃ file, (world.type slot.field.owner).file? = some file ∧
          admission.statics file slot.field value) := by
  cases holder with
  | object object =>
      obtain ⟨fields, holds⟩ := Option.isSome_iff_exists.1 holds
      obtain ⟨value, held, admitted⟩ := contains.instances object has.1 fields holds slot
        (sound.slot_mem_of_hasField has holds)
      exact ⟨value, by rw [World.content?, holds, Option.bind_some, held], .inl admitted⟩
  | type id =>
      obtain ⟨static, name, descriptor, declares⟩ := has
      obtain ⟨key, found⟩ := sound.find?_static_of_declared declares static
      obtain ⟨linkage, linked⟩ := Option.isSome_iff_exists.1 (linked_of_holds (.static found rfl))
      obtain ⟨file, declared, _⟩ := sound.fits linked
      obtain ⟨value, held, admitted⟩ := contains.statics id file key slot declared found
      have owned := ((sound.hosted_fields id).owned key slot found).1
      exact ⟨value, held, .inr ⟨file, owned ▸ declared, admitted⟩⟩

/-- A field is read where it holds a value that fits. -/
theorem Sound.fetch_eq_ok (sound : world.Sound) (has : world.HasField slot holder) :
    world.fetch slot holder = .ok value ↔
      world.content? holder slot.offset = some value ∧ value.fits slot.field.valueType := by
  cases holder with
  | object object =>
      rw [fetch, getField, Object.getField_eq_ok, content?, Option.bind_eq_some_iff]
      tauto
  | type id =>
      rw [fetch, getStatic_eq_ok]
      exact and_iff_right (sound.hosts_of_hasField has)

theorem Hosts.of_lasting {id : ClassId} (hosts : world.Hosts id slot)
    (same : (later.type id).lasting = (world.type id).lasting) : later.Hosts id slot where
  linked := by
    rw [← Class.lasting_linkage?, same, Class.lasting_linkage?]
    exact hosts.linked
  named := by
    rw [← Class.lasting_name, same, Class.lasting_name]
    exact hosts.named

section Misplaced

variable {id : ClassId} {error : Error}

end Misplaced

end World

section Machines

variable {Client : Type} {run : Runner Client} {machine : Machine Client} {id : ClassId}
variable {slot : FieldSlot} {receiver : Option ObjectId} {holder : Holder}

section Initialized

variable (initialized : (machine.world.type slot.field.owner).state = .fullyInitialized)
include initialized

end Initialized

/-- The field is the one that a class finds when it looks for a field that it declares, and a
receiver, if the field takes one, is an object of the class or of a subclass. -/
structure World.Addresses (world : World) (id : ClassId) (slot : FieldSlot)
    (receiver : Option ObjectId) : Prop where
  declares : ∃ name descriptor, (world.type id).declaredField? name descriptor = some slot
  owner : slot.field.owner = id
  receives : ¬ slot.field.isStatic → ∀ object, receiver = some object →
    object.index < world.objects.size ∧ world.Inherits (world.object object).type id

theorem World.Addresses.hasField {world : World} (addresses : world.Addresses id slot receiver)
    (reaches : slot.holder? receiver = some holder) : world.HasField slot holder := by
  obtain ⟨name, descriptor, declares⟩ := addresses.declares
  rcases FieldSlot.holder?_eq_some.1 reaches with ⟨static, _, rfl⟩ | ⟨dynamic, object, same, rfl⟩
  · exact ⟨static, name, descriptor, addresses.owner ▸ declares⟩
  · obtain ⟨present, inherits⟩ := addresses.receives dynamic object same
    exact ⟨present, dynamic, id, name, descriptor, declares, inherits⟩

section Addressed

variable {world : World} (addresses : world.Addresses id slot receiver)
variable (initialized : (world.type id).state = .fullyInitialized)
include addresses initialized

end Addressed

end Machines

/-! ### A byte and its place -/

set_option maxRecDepth 20000

namespace Gauges

/-- `Gauge` has a field for a byte and a constant one, for which its file has an int; `Dial` is a
subclass. -/
def files : List (String × ClassFile) :=
  let gauge : ClassFile := .withoutMembers 0x0021 "Gauge" "java/lang/Object" []
  let texts := ["B", "level", "LIMIT", "ConstantValue"]
  [("java/lang/Object", .withoutMembers 0x0021 "java/lang/Object" "" []),
    ("Gauge", { gauge with
      pool := gauge.pool ++ texts.map (fun text => .utf8 (Text.ModifiedUtf8.encode text)) ++
        [.integer 300]
      fields := [⟨⟨0⟩, 6, 5, []⟩, ⟨⟨0x0018⟩, 7, 5, [⟨8, [0, 9]⟩]⟩] }),
    ("Dial", .withoutMembers 0x0021 "Dial" "Gauge" [])]

def dial : ClassId := ⟨0⟩
def gauge : ClassId := ⟨1⟩

/-- The field of `Gauge`. -/
def level : FieldSlot where
  offset := 0
  field :=
    { owner := gauge, ownerName := "Gauge", name := "level", descriptor := "B",
      type := .primitive .byte, flags := ⟨0⟩, constant := none }

/-- The only object. -/
def object : ObjectId := ⟨0⟩

/-- Makes a `Dial` and stores a number. -/
def session : Session where
  callback _ _ := .done (.ok none)
  depth := 0
  program := do
    discard (Program.ask (.load .bootstrap "Dial"))
    discard (Program.ask (.initializeClass gauge))
    discard (Program.ask (.allocateInstance dial .none))
    Program.ask (.writeField (some level) (some object) (.int 5))
  sources := [.holding files]
  client := ()

/-- The world after that. -/
def world : World := session.last.world

def runner : Runner Unit := fun _ _ => pure none

/-- What comes of storing a number that is no byte. -/
def written : Except Error Unit × Machine Unit :=
  runFrom ⟨world, ()⟩ (writeField runner (some level) (some object) (.int 300))

/-- The object has the field. -/
def Suits (world : World) : Prop :=
  (world.type gauge).declaredField? "level" "B" = some level ∧
    object.index < world.objects.size ∧ (world.object object).type = dial ∧
    (world.type dial).superclass? = some gauge

instance (world : World) : Decidable (Suits world) := inferInstanceAs (Decidable (_ ∧ _))

theorem Suits.addresses {world : World} (suits : Suits world) :
    world.Addresses gauge level (some object) := by
  obtain ⟨declares, present, type, superclass⟩ := suits
  refine ⟨⟨"level", "B", declares⟩, rfl, fun _ _ same => ?_⟩
  cases same
  exact ⟨present, type ▸ .single superclass⟩

/-- Whether a step stores at most in the field of the object, and that it has the field then. -/
def suitable (step : Step) : Bool :=
  match step.operation with
  | .writeField slot receiver _ => slot = some level ∧ receiver = some object ∧ Suits step.world
  | .load _ _ | .initializeClass _ | .allocateInstance _ _ => true
  | _ => false

theorem steps_suitable : session.steps.all suitable = true := by
  decide +kernel

theorem met : world ∈ session.worlds := session.last_mem_worlds

theorem ends : (world.type gauge).state = .fullyInitialized ∧
    (world.object object).fields?.isSome ∧ Suits world := by
  decide +kernel

theorem addresses : world.Addresses gauge level (some object) := ends.2.2.addresses

theorem abides : session.Abides World.StoresProperly := by
  intro step among later holder slot value attempts
  have fine := List.all_eq_true.1 steps_suitable step among
  obtain ⟨before, operation⟩ := step
  cases attempts with
  | putField | putStatic | putstatic | putfield => cases fine
  | writeField stored reaches =>
      obtain ⟨same, rfl, suits⟩ := of_decide_eq_true fine
      cases same
      exact suits.addresses.hasField reaches

end Gauges

example : (Value.int 300).narrow (.primitive .byte) = .int 44 := by decide

/-! ### An array of a class with a field -/

namespace Rooted

/-- The root class has a field for an int, and so have arrays by their class, but not in fact. -/
def files : List (String × ClassFile) :=
  [("java/lang/Object", Mixed.file 0x0021 "java/lang/Object" "" [] [("x", 0)]),
    ("java/lang/Cloneable", Mixed.file 0x0601 "java/lang/Cloneable" "java/lang/Object" [] []),
    ("java/io/Serializable", Mixed.file 0x0601 "java/io/Serializable" "java/lang/Object" [] [])]

def root : ClassId := ⟨0⟩
def ints : ClassId := ⟨3⟩

/-- The field of the root class. -/
def slot : FieldSlot where
  offset := 0
  field :=
    { owner := root, ownerName := "java/lang/Object", name := "x", descriptor := "I",
      type := .primitive .int, flags := ⟨0⟩, constant := none }

/-- The only object. -/
def array : ObjectId := ⟨0⟩

/-- Makes an array of ints. -/
def session : Session where
  callback _ _ := .done (.ok none)
  depth := 0
  program := do
    discard (Program.ask (.primitiveArrayClass (.primitive .int)))
    discard (Program.ask (.initializeClass root))
    Program.ask (.allocatePrimitives ints 1)
  sources := [.holding files]
  client := ()

/-- The world after that. -/
def world : World := session.last.world

theorem met : world ∈ session.worlds := session.last_mem_worlds

def runner : Runner Unit := fun _ _ => pure none

theorem ends : (world.type root).state = .fullyInitialized ∧
    (world.type root).declaredField? "x" "I" = some slot ∧
    array.index < world.objects.size ∧ (world.object array).type = ints ∧
    (world.type ints).superclass? = some root := by
  decide +kernel

theorem addresses : world.Addresses root slot (some array) := by
  obtain ⟨_, declares, present, type, superclass⟩ := ends
  refine ⟨⟨"x", "I", declares⟩, rfl, fun _ _ same => ?_⟩
  cases same
  exact ⟨present, type ▸ .single superclass⟩

end Rooted

end JavaMachine
