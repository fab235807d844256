import JavaMachine.Proofs.Soundness

/-!
# Classes and their mirrors

There are mirrors as soon as the bootstrap loader has entered the class of which they are instances,
and from then on each class in its directory has one. From when that class has been linked until it
is entered it is an exception.
-/

namespace JavaMachine

/-- The class is the one of which mirrors are instances. -/
structure Class.IsMirrorClass (type : Class) : Prop where
  name : type.name = WellKnown.classClass
  loader : type.loader = .bootstrap

namespace World

variable {world middle later : World} {id : ClassId} {pending exempt : ClassId → Prop}

/-- The class of which mirrors are instances, once it has been entered. -/
def mirrorClass? (world : World) : Option ClassId :=
  world.findLoaded .bootstrap WellKnown.classClass

/-- Each class keeps the mirror that it has. -/
def KeepsMirrors (world later : World) : Prop :=
  ∀ id mirror, (world.type id).mirror = some mirror → (later.type id).mirror = some mirror

/-- All classes have the same mirrors. -/
def SameMirrors (world later : World) : Prop :=
  ∀ id, (later.type id).mirror = (world.type id).mirror

theorem KeepsMirrors.refl (world : World) : world.KeepsMirrors world := fun _ _ => id

theorem KeepsMirrors.trans (first : world.KeepsMirrors middle)
    (second : middle.KeepsMirrors later) : world.KeepsMirrors later :=
  fun id mirror has => second id mirror (first id mirror has)

theorem SameMirrors.keepsMirrors (same : world.SameMirrors later) : world.KeepsMirrors later :=
  fun id _ has => (same id).trans has

theorem KeepsMirrors.isSome (keeps : world.KeepsMirrors later)
    (has : (world.type id).mirror.isSome) : (later.type id).mirror.isSome := by
  obtain ⟨mirror, has⟩ := Option.isSome_iff_exists.1 has
  exact Option.isSome_of_eq_some (keeps id mirror has)

/-- Mirrors are no part of what is declared. -/
theorem sameMirrors_modifyDeclared (world : World) (id : ClassId)
    (change : DeclaredClass → DeclaredClass) :
    world.SameMirrors (world.modifyDeclared id change) := by
  intro other
  rw [modifyDeclared, type_modifyType]
  split
  · split <;> rfl
  · rfl

/-- Mirrors are instances of the class that the bootstrap loader has entered, and stand for those
whose mirrors they are; with that class all classes in the directory of the loader have mirrors. No
other class passes for it, pending ones apart. -/
structure MirroredBut (pending : ClassId → Prop) (world : World) : Prop where
  shows : ∀ id mirror, (world.type id).mirror = some mirror → ∃ type,
    world.mirrorClass? = some type ∧ (world.object mirror).lasting = (type, some (.mirror id))
  complete : world.mirrorClass?.isSome → ∀ name id, world.findLoaded .bootstrap name = some id →
    (world.type id).mirror.isSome
  entered : ∀ id, ¬ pending id → (world.type id).isUsable → (world.type id).IsMirrorClass →
    world.mirrorClass? = some id

/-- The same without exceptions. -/
abbrev Mirrored (world : World) : Prop := world.MirroredBut fun _ => False

theorem MirroredBut.mono (mirrored : world.MirroredBut pending)
    (implies : ∀ id, (world.type id).isUsable → (world.type id).IsMirrorClass → pending id →
      exempt id) : world.MirroredBut exempt where
  shows := mirrored.shows
  complete := mirrored.complete
  entered id free usable isClass :=
    mirrored.entered id (fun among => free (implies id usable isClass among)) usable isClass

/-- Neither mirrors nor what has been entered has changed. -/
theorem MirroredBut.of_same (mirrored : world.MirroredBut pending)
    (mirrors : world.SameMirrors later) (objects : world.KeepsObjects later)
    (entries : ∀ name, later.findLoaded .bootstrap name = world.findLoaded .bootstrap name)
    (usable : ∀ id, ¬ exempt id → (later.type id).isUsable → (later.type id).IsMirrorClass →
      ¬ pending id ∧ (world.type id).isUsable ∧ (world.type id).IsMirrorClass) :
    later.MirroredBut exempt where
  shows id mirror has := by
    rw [mirrors] at has
    obtain ⟨type, entry, lasting⟩ := mirrored.shows id mirror has
    have present := present_of_lasting (congrArg Prod.snd lasting) nofun
    exact ⟨type, (entries _).trans entry, (objects.lasting mirror present).trans lasting⟩
  complete has name id entry := by
    rw [mirrorClass?, entries] at has
    rw [entries] at entry
    rw [mirrors]
    exact mirrored.complete has name id entry
  entered id free usableLater isClass := by
    obtain ⟨freeBefore, usableBefore, isClassBefore⟩ := usable id free usableLater isClass
    exact (entries _).trans (mirrored.entered id freeBefore usableBefore isClassBefore)

/-- Classes are the same in what lasts. -/
theorem MirroredBut.of_lasting (mirrored : world.MirroredBut pending)
    (lasting : ∀ id, (later.type id).lasting = (world.type id).lasting)
    (mirrors : world.SameMirrors later) (objects : world.KeepsObjects later)
    (loaders : later.loaders = world.loaders) : later.MirroredBut pending := by
  refine mirrored.of_same mirrors objects (findLoaded_eq_of_loaders loaders .bootstrap)
    fun id free usable isClass => ⟨free, ?_, ?_, ?_⟩
  · rw [← Class.lasting_isUsable, ← lasting, Class.lasting_isUsable, usable]
  · rw [← Class.lasting_name, ← lasting, Class.lasting_name, isClass.name]
  · rw [← Class.lasting_loader, ← lasting, Class.lasting_loader, isClass.loader]

/-- Without the class of which they are instances there are no mirrors. -/
theorem MirroredBut.mirror_eq_none (mirrored : world.MirroredBut pending)
    (unknown : world.mirrorClass? = none) (id : ClassId) : (world.type id).mirror = none := by
  rw [Option.eq_none_iff_forall_ne_some]
  intro mirror has
  obtain ⟨type, entry, _⟩ := mirrored.shows id mirror has
  rw [unknown] at entry
  cases entry

/-- A class without a mirror comes in. -/
theorem sameMirrors_addType {type : Class} (unmirrored : type.mirror = none) :
    world.SameMirrors (world.addType type).2 := by
  intro id
  rw [type_addType]
  split
  next new => rw [unmirrored, type_eq_default (Nat.le_of_eq new.symm)]; rfl
  next => rfl

theorem Mirrored.addType (mirrored : world.Mirrored) {type : Class}
    (unmirrored : type.mirror = none) (other : type.isUsable → ¬ type.IsMirrorClass) :
    (world.addType type).2.Mirrored := by
  refine mirrored.of_same (sameMirrors_addType unmirrored) (.of_eq rfl) (fun _ => rfl)
    fun id _ usable isClass => ⟨not_false, ?_⟩
  rw [type_addType] at usable isClass
  split at usable
  next new =>
    rw [if_pos new] at isClass
    exact absurd isClass (other usable)
  next old =>
    rw [if_neg old] at isClass
    exact ⟨usable, isClass⟩

end World
end JavaMachine
