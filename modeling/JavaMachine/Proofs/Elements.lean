import JavaMachine.Proofs.Storage
import JavaMachine.Proofs.Walks

/-!
# What arrays hold

The elements of a reference array are objects that may stand where the component of its class is
expected. Since assignability lasts, an array that nobody stores into goes on holding such elements,
and work that leaves fields alone does not store others either.
-/

namespace JavaMachine

theorem Class.isArray_of_component? {type : Class} {component : ClassId}
    (known : type.component? = some component) : type.isArray := by
  unfold component? at known
  split at known
  next kind => simp [isArray, declared?, kind]
  next => cases known

namespace World

variable {world middle later : World} {object : Object} {component : ClassId} {element : ObjectId}

/-- The object is there and may stand where one of the class is expected. -/
structure Suits (world : World) (component : ClassId) (element : ObjectId) : Prop where
  present : element.index < world.objects.size
  assignable : world.isAssignable (world.object element).type component

/-- The object is of a class that may be handed out. If it is a reference array then its elements
suit the component of its class. -/
structure Guards (world : World) (object : Object) : Prop where
  usable : (world.type object.type).isUsable
  elements : ∀ elements, object.body = .references elements → ∃ component,
    (world.type object.type).component? = some component ∧
      ∀ element, some element ∈ elements → world.Suits component element

/-- No array holds an element that its component class does not admit. -/
def Guarded (world : World) : Prop :=
  ∀ object : ObjectId, object.index < world.objects.size → world.Guards (world.object object)

/-- An object that is no reference array has no elements to guard. -/
theorem guards_of_body (usable : (world.type object.type).isUsable)
    (body : ∀ elements, object.body ≠ .references elements) : world.Guards object where
  usable := usable
  elements elements same := absurd same (body elements)

/-- The same holds of an object that has been changed into no reference array. -/
theorem Guards.of_body {changed : Object} (guards : world.Guards object)
    (lasting : changed.lasting = object.lasting)
    (body : ∀ elements, changed.body ≠ .references elements) : world.Guards changed := by
  have type : changed.type = object.type := by simpa using congrArg Prod.fst lasting
  exact guards_of_body (type ▸ guards.usable) body

theorem guards_of_component? {elements : Array (Option ObjectId)} {id : ClassId}
    (known : (world.type id).component? = some component)
    (suit : ∀ element, some element ∈ elements → world.Suits component element) :
    world.Guards ⟨id, .references elements⟩ where
  usable := Class.isUsable_of_isArray (Class.isArray_of_component? known)
  elements _ same := by
    cases same
    exact ⟨component, known, suit⟩

section Kept

variable (guarded : world.Guarded) (sound : world.Sound) (vetted : world.Vetted)
  (keeps : world.KeepsUsable later) (objects : world.KeepsObjects later)
include guarded sound vetted keeps objects

theorem Suits.mono (suits : world.Suits component element)
    (usable : (world.type component).isUsable) : later.Suits component element where
  present := Nat.lt_of_lt_of_le suits.present objects.size
  assignable := by
    have usableToo := (guarded element suits.present).usable
    rw [objects.type_eq suits.present, keeps.isAssignable_eq sound vetted usableToo usable]
    exact suits.assignable

theorem Guards.mono (guards : world.Guards object) : later.Guards object where
  usable := keeps.isUsable guards.usable
  elements elements body := by
    obtain ⟨component, known, suit⟩ := guards.elements elements body
    have usable := (vetted.classes object.type).component component known
    refine ⟨component, (keeps.component?_eq guards.usable).trans known, fun element among => ?_⟩
    exact (suit element among).mono guarded sound vetted keeps objects usable

/-- It is enough to guard what objects hold afterwards in the world before. -/
theorem Guarded.of_guards (guards : ∀ object : ObjectId, object.index < later.objects.size →
    world.Guards (later.object object)) : later.Guarded :=
  fun object present => (guards object present).mono guarded sound vetted keeps objects

end Kept

/-- An object comes in. -/
theorem Guarded.addObject (guarded : world.Guarded) (sound : world.Sound) (vetted : world.Vetted)
    (guards : world.Guards object) : (world.addObject object).2.Guarded := by
  refine guarded.of_guards sound vetted (fun _ _ => rfl) (.addObject world object)
    fun other present => ?_
  rw [object_addObject]
  split
  next => exact guards
  next old =>
    simp only [World.addObject, Array.size_push] at present
    exact guarded other (by omega)

/-- An object is replaced by one of the same class. -/
theorem Guarded.setObject {id : ObjectId} (guarded : world.Guarded) (sound : world.Sound)
    (vetted : world.Vetted)
    (same : id.index < world.objects.size → object.lasting = (world.object id).lasting)
    (guards : id.index < world.objects.size → world.Guards object) :
    (world.setObject id object).Guarded := by
  refine guarded.of_guards sound vetted (fun _ _ => rfl) (.setObject same) fun other present => ?_
  rw [object_setObject]
  split
  next here => exact guards (here.1 ▸ here.2)
  next =>
    simp only [World.setObject, Array.size_setIfInBounds] at present
    exact guarded other present

theorem Guarded.of_objects (guarded : world.Guarded) (sound : world.Sound)
    (vetted : world.Vetted) (keeps : world.KeepsUsable later)
    (same : later.objects = world.objects) : later.Guarded := by
  refine guarded.of_guards sound vetted keeps (.of_eq same) fun object present => ?_
  rw [show later.object object = world.object object by rw [World.object, same, World.object]]
  exact guarded object (same ▸ present)

/-! ### What is left alone -/

/-- Fields are left alone, and arrays are given no elements that do not suit them. -/
structure LeavesContents (world later : World) : Prop extends world.LeavesFields later where
  guards : world.Sound → world.Vetted → world.Guarded → later.Guarded

namespace LeavesContents

theorem refl (world : World) : world.LeavesContents world where
  toLeavesFields := .refl world
  guards _ _ := id

theorem trans (first : world.LeavesContents middle) (second : middle.LeavesContents later)
    (sound : middle.Sound) (vets : world.Vetted → middle.Vetted) (retains : middle.Retains later)
    (firstKeeps : world.KeepsUsable middle) (objects : world.KeepsObjects middle)
    (keeps : middle.KeepsObjects later) : world.LeavesContents later where
  toLeavesFields :=
    first.toLeavesFields.trans second.toLeavesFields retains firstKeeps objects keeps
  guards start vetted guarded :=
    second.guards sound (vets vetted) (first.guards start vetted guarded)

/-- Objects are not touched. -/
theorem of_objects (leaves : world.LeavesFields later) (keeps : world.KeepsUsable later)
    (same : later.objects = world.objects) : world.LeavesContents later where
  toLeavesFields := leaves
  guards sound vetted guarded := guarded.of_objects sound vetted keeps same

/-- Objects are not touched, and classes last with their static values. -/
theorem of_lasting (same : later.objects = world.objects)
    (lasting : ∀ id, (later.type id).lasting = (world.type id).lasting)
    (static : ∀ id, (later.type id).static = (world.type id).static) :
    world.LeavesContents later :=
  .of_objects (.of_lasting (.of_eq same) lasting static) (fun id _ => lasting id) same

/-- Neither classes nor objects are touched. -/
theorem of_eq (classes : later.classes = world.classes)
    (objects : later.objects = world.objects) : world.LeavesContents later :=
  .of_objects (.of_eq classes objects) (fun id _ => by rw [type, classes, type]) objects

end LeavesContents
end World
end JavaMachine
