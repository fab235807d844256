import JavaMachine.Proofs.History
import JavaMachine.Proofs.Lookups
import JavaMachine.Proofs.Sparing

/-!
# Lookups that are tried again

A lookup that has failed is made anew the next time. As long as directories are spared that does not
help: what a later world can get an earlier one can get, since the loaders of both ask the same ones
and have the same files. So a lookup that fails fails whenever it is made.
-/

namespace JavaMachine
namespace World

variable {model world later : World} {id : ClassId} {text : String} {object : ObjectId}

/-! ### Strings -/

/-- A string of the model can be made in a world like it, as the class of strings can be loaded. -/
theorem Quiet.intern_delivers (quiet : model.Quiet world)
    (known : model.strings.find? text = some object) : world.Delivers (intern text) := by
  obtain ⟨strings, entry, _⟩ := quiet.regular.strings text object known
  have registered := quiet.regular.registered_of_findLoaded entry
  have declared := (quiet.regular.entries _ _ _ entry).not_isArray (by decide)
  exact World.intern_delivers load_finds text entry
    (supplies_of_registered quiet.sound quiet.regular registered declared)
    (quiet.calm.ready registered declared)

/-! ### Earlier worlds -/

theorem Quiet.onward (quiet : model.Quiet world) (onward : world.Onward id later) :
    model.Quiet later :=
  quiet.of_settles onward.versed.sound onward.versed.regular onward.settles

/-- A world in which nothing is under way can get what constants mean in worlds that come after. -/
theorem Retains.affords (retains : world.Retains later) (versed : world.Versed)
    (idle : ∀ loader name, ¬ world.Defining loader name) (versedLater : later.Versed)
    (linked : (world.type id).linkage?.isSome) : later.Affords world id := by
  have usable := Class.isUsable_of_linkage? linked
  have present := versed.sound.homes id (present_of_isUsable usable)
  have loader := retains.loader_eq usable
  have quiet : later.Quiet world :=
    { sound := versedLater.sound
      regular := versedLater.regular
      soundToo := versed.sound
      regularToo := versed.regular
      shares := fun _ _ present => (retains.shares versed.sound present).symm
      idle }
  refine ⟨versed, versed.vetted.pool?_of_linked linked, (retains.file?_eq usable).symm, ?_, ?_, ?_⟩
  · intro middle className type onward leads
    rw [onward.loader]
    rw [loader] at leads
    have shares := ((retains.shares versed.sound present).symm).of_alike onward.settles.alike
    exact ((quiet.onward onward).load_some shares leads).required
  · intro middle className type own onward leads declared leadsToo
    rw [onward.loader, ← loader] at leadsToo
    have comparable := (quiet.onward onward).toComparable
    rwa [(comparable.twins_of_leadsTo leads leadsToo).isArray_eq comparable]
  · intro middle text object onward known
    exact (quiet.onward onward).intern_delivers known

end World

end JavaMachine
