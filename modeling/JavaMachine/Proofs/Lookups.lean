import JavaMachine.Proofs.Resolution

/-!
# Lookups that come to results

What a lookup needs to come to a result is the file of the class, and classes and strings that the
world can get. It then gives what the constant means, no matter what the pool remembers. So a
constant that means something in one world is looked up with success in every other that can get the
same.
-/

namespace JavaMachine.World

variable {model world later : World} {id type : ClassId} {kind : ConstantKind}
variable {index owner nameAndType : UInt16} {file : ClassFile} {constant : Constant}
variable {result : kind.Meaning} {name className descriptor text : String}

/-- A linked class has its pool. -/
theorem Vetted.pool?_of_linked (vetted : world.Vetted) (linked : (world.type id).linkage?.isSome) :
    (world.type id).pool?.isSome := by
  obtain ⟨linkage, isLinkage⟩ := Option.isSome_iff_exists.1 linked
  exact ((vetted.classes id).pool (Class.not_isArray_of_linkage? isLinkage)).2 linked

/-- The later world knows its constants too, and the class is there with its pool and its file. The
same definitions are under way, and the same loaders are there. -/
structure Onward (world : World) (id : ClassId) (later : World) : Prop where
  versed : later.Versed
  attached : (later.type id).pool?.isSome
  file : (later.type id).file? = (world.type id).file?
  loader : (later.type id).loader = (world.type id).loader
  settles : world.Settles later

theorem Onward.retains (onward : world.Onward id later) : world.Retains later :=
  onward.settles.toRetains

theorem Searches.onward {limit : Nat} (searches : Searches limit world later)
    (versed : world.Versed) (attached : (world.type id).pool?.isSome) : world.Onward id later where
  versed := searches.versed versed
  attached := searches.attached versed.vetted attached
  file := searches.grows.file?_eq (present_of_pool? attached)
  loader := searches.grows.loader_eq (present_of_pool? attached)
  settles := searches.settles

/-! ### What lookups give -/

/-- The computation gives what the constant means. -/
def Gives (world : World) (id : ClassId) {α : Type} (action : WorldM α) (result : α) : Prop :=
  ∃ later, runFrom world action = (.ok result, later) ∧ world.Onward id later

section Texts

variable (versed : world.Versed) (attached : (world.type id).pool?.isSome)
  (declared : (world.type id).file? = some file)
include versed attached declared

end Texts

/-! ### Worlds that can get what a constant means -/

/-- The world, and those to which lookups lead from it, can get the classes and the strings that
constants of a class mean in the model. The classes are of the same kind. -/
structure Affords (model world : World) (id : ClassId) : Prop where
  versed : world.Versed
  attached : (world.type id).pool?.isSome
  file : (world.type id).file? = (model.type id).file?
  classes : ∀ later className type, world.Onward id later →
    model.LeadsTo (model.type id).loader className type →
      later.Delivers (require (later.type id).loader className)
  declared : ∀ later className type own, world.Onward id later →
    model.LeadsTo (model.type id).loader className type → ¬ (model.type type).isArray →
      later.LeadsTo (later.type id).loader className own → ¬ (later.type own).isArray
  strings : ∀ later text object, world.Onward id later →
    model.strings.find? text = some object → later.Delivers (intern text)

/-- A world can get what its own constants mean. -/
theorem Affords.refl (versed : world.Versed) (attached : (world.type id).pool?.isSome) :
    world.Affords world id where
  versed := versed
  attached := attached
  file := rfl
  classes later className type onward leads := by
    have leadsStill := leads.mono versed.sound onward.retains
    rw [← onward.loader] at leadsStill
    have outcome := (load_finds _ className later onward.versed.sound).again onward.versed.regular
      type leadsStill
    rw [Delivers, require, Load.required, runFrom_bind_of_outcome outcome]
    exact ⟨type, rfl⟩
  declared later className type own onward leads declared leadsToo := by
    have leadsStill := leads.mono versed.sound onward.retains
    rw [onward.loader] at leadsToo
    cases onward.versed.regular.leadsTo_unique onward.versed.sound leadsStill leadsToo
    rwa [onward.retains.isArray_eq (leads.isUsable versed.sound)]
  strings later text object onward known := by
    apply Delivers.bindGet
    rw [onward.retains.strings text object known]
    exact .pure object

namespace Affords

variable (affords : model.Affords world id) (declared : (model.type id).file? = some file)
include affords declared

theorem constantAt (found : file.constant? index = some constant) :
    world.constantAt id index = .ok constant :=
  constantAt_eq_ok.2 ⟨file, affords.file.trans declared, affords.attached, found⟩

end Affords

end JavaMachine.World
