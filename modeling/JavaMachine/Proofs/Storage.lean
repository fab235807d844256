import JavaMachine.Proofs.Naming

/-!
# What is stored in fields

Most work on a world leaves fields alone: objects and static fields hold what they held, a new
instance holds the defaults of its fields, and the static fields of a class that is linked meanwhile
hold the values with which they start.
-/

namespace JavaMachine

namespace Object

/-- The values of the fields of an instance. -/
def fields? (object : Object) : Option (Array Value) :=
  match object.body with
  | .record fields _ => some fields
  | _ => none

theorem fields?_eq_some {object : Object} {fields : Array Value} :
    object.fields? = some fields ↔ ∃ attachment, object.body = .record fields attachment := by
  unfold fields?
  cases object.body with
  | record own attachment => simp
  | primitives elements => simp
  | references elements => simp

@[simp] theorem lasting_fst (object : Object) : object.lasting.1 = object.type := by
  unfold lasting
  split <;> rfl

/-- Only what has fields carries something besides. -/
theorem fields?_eq_none {object : Object} : object.fields? = none ↔ object.lasting.2 = none := by
  unfold fields? lasting
  cases object.body with
  | record fields attachment => simp
  | primitives elements => simp
  | references elements => simp

theorem fields?_eq_none_of_lasting {object other : Object} (same : object.lasting = other.lasting)
    (array : object.fields? = none) : other.fields? = none := by
  rw [fields?_eq_none, ← same, ← fields?_eq_none]
  exact array

end Object

namespace World

variable {world middle later : World} {id : ClassId}

/-- If the object is an instance, it holds the defaults of the fields of its class. -/
def Fresh (world : World) (object : Object) : Prop :=
  ∀ fields, object.fields? = some fields → ∃ linkage,
    (world.type object.type).linkage? = some linkage ∧ fields = freshFields linkage.fields

theorem Fresh.shaped {object : Object} (fresh : world.Fresh object) : world.Shaped object := by
  intro fields attachment body
  obtain ⟨linkage, linked, rfl⟩ := fresh fields (Object.fields?_eq_some.2 ⟨attachment, body⟩)
  exact ⟨linkage, linked, by simp [freshFields]⟩

theorem fresh_of_array {object : Object} (array : object.fields? = none) : world.Fresh object := by
  intro fields holds
  rw [array] at holds
  cases holds

/-- Objects hold in their fields what they held, and new ones hold the defaults. -/
structure LeavesObjects (world later : World) : Prop where
  held : ∀ object, object.index < world.objects.size →
    (later.object object).fields? = (world.object object).fields?
  fresh : ∀ object, world.objects.size ≤ object.index → object.index < later.objects.size →
    later.Fresh (later.object object)

/-- Besides, static fields hold what they held, or what they start with. -/
structure LeavesFields (world later : World) : Prop extends world.LeavesObjects later where
  static : ∀ id, (world.type id).linkage?.isSome → (later.type id).static = (world.type id).static
  starts : ∀ id file linkage, (world.type id).linkage? = none →
    (later.type id).file? = some file → (later.type id).linkage? = some linkage →
      later.Starts file linkage.fields (later.type id).static

/-- An object that is there is of the same class later. -/
theorem KeepsObjects.type_eq (keeps : world.KeepsObjects later) {object : ObjectId}
    (present : object.index < world.objects.size) :
    (later.object object).type = (world.object object).type := by
  simpa using congrArg Prod.fst (keeps.lasting object present)

namespace LeavesObjects

theorem of_eq (objects : later.objects = world.objects) : world.LeavesObjects later where
  held object _ := by rw [World.object, objects, World.object]
  fresh object absent present := by
    rw [objects] at present
    exact absurd present (Nat.not_lt_of_le absent)

theorem trans (first : world.LeavesObjects middle) (second : middle.LeavesObjects later)
    (usable : middle.KeepsUsable later) (objects : world.KeepsObjects middle)
    (keeps : middle.KeepsObjects later) : world.LeavesObjects later where
  held object present :=
    (second.held object (Nat.lt_of_lt_of_le present objects.size)).trans (first.held object present)
  fresh object absent present := by
    rcases Nat.lt_or_ge object.index middle.objects.size with before | new
    · intro fields holds
      rw [second.held object before] at holds
      obtain ⟨linkage, linked, same⟩ := first.fresh object absent before fields holds
      rw [keeps.type_eq before]
      exact ⟨linkage, usable.linkage? linked, same⟩
    · exact second.fresh object new present

/-- An object comes in whose fields, if it has any, hold the defaults. -/
theorem addObject {object : Object} (fresh : world.Fresh object) :
    world.LeavesObjects (world.addObject object).2 where
  held other present := by rw [object_addObject, if_neg (Nat.ne_of_lt present)]
  fresh other absent present := by
    have new : other.index = world.objects.size := by
      rw [World.addObject, Array.size_push] at present
      exact Nat.le_antisymm (Nat.le_of_lt_succ present) absent
    rw [object_addObject, if_pos new]
    exact fresh

/-- An object is replaced by one with the same fields. -/
theorem setObject {id : ObjectId} {object : Object}
    (same : id.index < world.objects.size → object.fields? = (world.object id).fields?) :
    world.LeavesObjects (world.setObject id object) where
  held other present := by
    rw [object_setObject]
    split
    next here =>
      obtain ⟨rfl, _⟩ := here
      exact same present
    next => rfl
  fresh other absent present := by
    rw [World.setObject, Array.size_setIfInBounds] at present
    exact absurd present (Nat.not_lt_of_le absent)

end LeavesObjects

namespace LeavesFields

/-- Classes last with their static values. -/
theorem of_lasting (objects : world.LeavesObjects later)
    (lasting : ∀ id, (later.type id).lasting = (world.type id).lasting)
    (static : ∀ id, (later.type id).static = (world.type id).static) :
    world.LeavesFields later where
  toLeavesObjects := objects
  static id _ := static id
  starts id file linkage unlinked _ linked := by
    rw [← Class.lasting_linkage?, lasting, Class.lasting_linkage?, unlinked] at linked
    cases linked

/-- Neither classes nor objects are touched. -/
theorem of_eq (classes : later.classes = world.classes) (objects : later.objects = world.objects) :
    world.LeavesFields later := by
  have same (id : ClassId) : later.type id = world.type id := by rw [type, classes, type]
  exact of_lasting (.of_eq objects) (fun id => by rw [same]) fun id => by rw [same]

theorem refl (world : World) : world.LeavesFields world := of_eq rfl rfl

theorem trans (first : world.LeavesFields middle) (second : middle.LeavesFields later)
    (retains : middle.Retains later) (firstKeeps : world.KeepsUsable middle)
    (objects : world.KeepsObjects middle) (keeps : middle.KeepsObjects later) :
    world.LeavesFields later where
  toLeavesObjects :=
    first.toLeavesObjects.trans second.toLeavesObjects retains.usable objects keeps
  static id linked := by
    have linkedStill : (middle.type id).linkage?.isSome := by
      rw [firstKeeps.linkage?_eq linked]
      exact linked
    exact (second.static id linkedStill).trans (first.static id linked)
  starts id file linkage unlinked declared linked := by
    cases between : (middle.type id).linkage? with
    | none => exact second.starts id file linkage between declared linked
    | some own =>
        have linkedStill := retains.usable.linkage? between
        rw [linked] at linkedStill
        cases linkedStill
        have usable := Class.isUsable_of_linkage? (Option.isSome_of_eq_some between)
        rw [second.static id (Option.isSome_of_eq_some between)]
        rw [retains.file?_eq usable] at declared
        exact (first.starts id file linkage unlinked declared between).mono retains.strings

/-- A class comes in without a linkage. -/
theorem addType {type : Class} (unlinked : type.linkage? = none) :
    world.LeavesFields (world.addType type).2 where
  toLeavesObjects := .of_eq rfl
  static id linked := by
    rw [type_addType, if_neg]
    intro new
    rw [type_eq_default (Nat.le_of_eq new.symm)] at linked
    cases linked
  starts id file linkage before declared linked := by
    rw [type_addType] at linked
    split at linked
    · rw [unlinked] at linked
      cases linked
    · rw [before] at linked
      cases linked

end LeavesFields

/-- As long as fields are left alone static fields keep the values with which they started. -/
theorem Pristine.of_leaves {about : ClassId → Prop} (pristine : world.Pristine about)
    (leaves : world.LeavesFields later) (retains : world.Retains later) :
    later.Pristine about := by
  intro id file linkage among declared linked
  cases before : (world.type id).linkage? with
  | none => exact leaves.starts id file linkage before declared linked
  | some own =>
      have linkedStill := retains.usable.linkage? before
      rw [linked] at linkedStill
      cases linkedStill
      have isLinked := Option.isSome_of_eq_some before
      rw [retains.file?_eq (Class.isUsable_of_linkage? isLinked)] at declared
      rw [leaves.static id isLinked]
      exact (pristine id file linkage among declared before).mono retains.strings

end World
end JavaMachine
