import JavaMachine.Proofs.Session
import JavaMachine.Proofs.Undisturbed

/-!
# Names under which classes are found

A class is found under its own name, and so under one name only, however it is asked for: it may be
loaded, required, or named by a constant. There is one way around that. The text of an array type
may write a component that is an array class like one that is none, and the array class that is found
then goes by another name.
-/

namespace JavaMachine
namespace World

variable {world later : World} {name : String} {id : ClassId}

/-- A class is got by a name: it is loaded or required, or it is named by a constant of a class. -/
inductive Gets (world : World) (name : String) (id : ClassId) (later : World) : Prop where
  | load (loader : LoaderId)
      (ends : runFrom world (World.load loader name) = (.ok (some id), later))
  | require (loader : LoaderId)
      (ends : runFrom world (World.require loader name) = (.ok id, later))
  | resolve (current : ClassId) (index : UInt16) (file : ClassFile)
      (declared : (world.type current).file? = some file)
      (written : file.className? index = some name)
      (ends : runFrom world (World.resolve current .classRef index) = (.ok id, later))

/-- The class that is got may be handed out, and it has the name if that is the name of a class. -/
theorem Gets.titled (gets : world.Gets name id later) (clean : world.Clean) :
    world.KeepsUsable later ∧ (later.type id).isUsable ∧
      ((later.type id).name = name ↔ FieldType.IsClassName name) := by
  have leading (evolves : world.Evolves later) {loader : LoaderId}
      (leads : later.LeadsTo loader name id) : world.KeepsUsable later ∧
        (later.type id).isUsable ∧ ((later.type id).name = name ↔ FieldType.IsClassName name) :=
    ⟨evolves.grows.keepsUsable, leads.isUsable evolves.sound, evolves.sound.name_eq_iff leads⟩
  cases gets with
  | load loader ends =>
      obtain ⟨evolves, found⟩ := (load_finds loader name world clean.sound).ends.ok ends
      exact leading evolves (found.leads id rfl)
  | require loader ends =>
      obtain ⟨evolves, leads⟩ := (Load.required_ends load_finds loader name clean.sound).ok ends
      exact leading evolves leads
  | resolve current index file declared written ends =>
      obtain ⟨searches, resolves⟩ := (resolve_ends current .classRef index clean.sound).ok ends
      obtain ⟨usable, own, writtenToo, same⟩ := resolves.reads clean.vetted file declared
      cases written.symm.trans writtenToo
      exact ⟨searches.grows.keepsUsable, usable, same⟩

end World

/-- Wherever a class is got by a name in a session, it has that name if the name is the name of a
class, and only then. So no class is got by two names of classes, however much later. -/
theorem Session.title_iff (session : Session) :
    (∀ world ∈ session.worlds, ∀ name id later, world.Gets name id later →
      ((later.type id).name = name ↔ FieldType.IsClassName name)) ∧
    ∀ step ∈ session.steps, ∀ world, session.Since step world → ∀ name other id later,
      step.world.Gets name id step.left → world.Gets other id later →
        FieldType.IsClassName name → FieldType.IsClassName other → name = other := by
  have clean (world : World) (among : world ∈ session.worlds) : world.Clean :=
    World.Met.clean ⟨session, among⟩
  refine ⟨fun world among name id later gets => (gets.titled (clean world among)).2.2, ?_⟩
  intro step taken world since name other id later gets getsToo named namedToo
  obtain ⟨_, usable, title⟩ := gets.titled (clean _ (Session.world_mem_worlds taken))
  obtain ⟨keeps, _, titleToo⟩ := getsToo.titled (clean _ (Session.mem_worlds_of_since since))
  have endures := session.joins.bound_of_since since
  calc
    name = (step.left.type id).name := (title.2 named).symm
    _ = (world.type id).name := (endures.usable.name_eq usable).symm
    _ = (later.type id).name := (keeps.name_eq (endures.usable.isUsable usable)).symm
    _ = other := titleToo.2 namedToo

/-! ### An array class under another name -/

namespace Bracketed

def sources : List Source :=
  [.holding [("java/lang/Object", .withoutMembers 0x0021 "java/lang/Object" "" [])]]

/-- Loads the class of arrays of arrays of ints, by its name. -/
def session : Session := .inOrder sources [.load .bootstrap "[[I"]

/-- The world after that. -/
def world : World := (World.initial sources).after [.load .bootstrap "[[I"]

/-- The class of arrays of arrays. -/
def arrays : ClassId := ⟨2⟩

/-- The only step. -/
def step : Step := ⟨World.initial sources, .load .bootstrap "[[I"⟩

theorem plain : ∀ operation ∈ [Operation.load .bootstrap "[[I"], operation.runsMethods = false := by
  simp [Operation.runsMethods]

theorem taken : step ∈ session.steps := Session.mem_steps_inOrder sources [] [] _ plain

theorem since : session.Since step world := Session.since_inOrder sources [] [] _ plain

set_option maxRecDepth 20000 in
theorem leads : (runFrom step.world (World.load .bootstrap "[[I")).1 = .ok (some arrays) ∧
    (runFrom world (World.load .bootstrap "[[I")).1 = .ok (some arrays) ∧
    (runFrom world (World.load .bootstrap "[L[I;")).1 = .ok (some arrays) ∧
    ((runFrom world (World.load .bootstrap "[L[I;")).2.type arrays).name = "[[I" := by
  decide +kernel

theorem named : FieldType.IsClassName "[[I" := by decide +kernel

theorem gets : step.world.Gets "[[I" arrays step.left := by
  have left : step.left = (runFrom step.world (World.load .bootstrap "[[I")).2 :=
    Step.left_load step.world .bootstrap "[[I"
  rw [left]
  exact .load .bootstrap (runFrom_eq_of_outcome leads.1)

end Bracketed

/-- The class of arrays of arrays is got by its name, and by no other name of a class. -/
theorem Session.title_iff_arrays :
    Bracketed.world ∈ Bracketed.session.worlds ∧
      (Bracketed.step.left.type Bracketed.arrays).name = "[[I" ∧
      ∀ name later, Bracketed.world.Gets name Bracketed.arrays later →
        FieldType.IsClassName name → "[[I" = name := by
  obtain ⟨titled, once⟩ := Session.title_iff Bracketed.session
  refine ⟨Session.mem_worlds_of_since Bracketed.since, ?_, fun name later getsToo named => ?_⟩
  · exact (titled _ (Session.world_mem_worlds Bracketed.taken) _ _ _ Bracketed.gets).2
      Bracketed.named
  · exact once _ Bracketed.taken _ Bracketed.since _ _ _ _ Bracketed.gets getsToo
      Bracketed.named named

/-- The class is got as well by a text that is not its name. -/
theorem World.misnamed_arrays : Bracketed.world ∈ Bracketed.session.worlds ∧
    ∃ later, Bracketed.world.Gets "[L[I;" Bracketed.arrays later ∧
      (later.type Bracketed.arrays).name = "[[I" ∧
      ∃ last, Bracketed.world.Gets "[[I" Bracketed.arrays last := by
  obtain ⟨_, known, other, title⟩ := Bracketed.leads
  exact ⟨Session.mem_worlds_of_since Bracketed.since,
    _, .load .bootstrap (runFrom_eq_of_outcome other), title,
    _, .load .bootstrap (runFrom_eq_of_outcome known)⟩

end JavaMachine
