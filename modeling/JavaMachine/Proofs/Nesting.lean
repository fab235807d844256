import JavaMachine.Proofs.Agreement
import JavaMachine.Proofs.Capacity
import JavaMachine.Proofs.Delegation
import Mathlib.Data.List.Perm.Subperm

/-!
# How deep definitions are nested

A definition that is under way has a class file of its own, so there are no more of them than class
files, and the names of components grow shorter. Loading therefore comes to an end before its limits
do.
-/

namespace JavaMachine.World

variable {beyond define defineToo : Load} {world later : World} {loader : LoaderId}
variable {name : String} {holds : World → Prop}

/-- Loads any name, except that array classes with more dimensions than the limit allows are left to
`beyond`. -/
def loadAnyOr (beyond define : Load) : (limit : Nat) → Load
  | 0, loader, name =>
      if name.toList.head? = some '[' then beyond loader name else loadNamed define loader name
  | limit + 1, loader, name =>
      if name.toList.head? = some '[' then
        answering loader name do
          match (← get).findLoaded loader name with
          | some id => return some id
          | none => loadArray (loadNamed define) (loadAnyOr beyond define limit loader) name
      else loadNamed define loader name

/-- Loads any name, except that what the innermost definitions ask for that may be under way is left
to `bottom`, and array classes with too many dimensions to `beyond`. -/
def loadWithinOr (beyond bottom : Load) : (depth : Nat) → Load
  | 0 => bottom
  | depth + 1 => fun loader name =>
      loadAnyOr beyond
        (fun definer className => do
          defineFrom (loadWithinOr beyond bottom depth) definer className
            ((← get).loader definer).sources)
        name.length loader name

/-- The length of a name is enough as a limit. -/
theorem loadAnyOr_agree (perpetual : Perpetual holds)
    (starting : ∀ {world loader name}, holds world → holds (world.starting loader name))
    (defines : Defines defineToo)
    (agree : ∀ loader name world, holds world → ¬ world.Defining loader name →
      runFrom (world.starting loader name) (define loader name) =
        runFrom (world.starting loader name) (defineToo loader name))
    (limit : Nat) (loader : LoaderId) (name : String) (enough : name.length ≤ limit) :
    Agree holds (loadAnyOr beyond define limit loader name)
      (loadAny defineToo limit loader name) := by
  have named (loader : LoaderId) {name : String} (plain : name.toList.head? ≠ some '[') :
      Agree holds (loadNamed define loader name) (loadNamed defineToo loader name) :=
    loadNamed_agree perpetual defines agree loader plain
  induction limit generalizing name with
  | zero =>
      have plain : name.toList.head? ≠ some '[' := by
        rw [← String.length_toList, Nat.le_zero, List.length_eq_zero_iff] at enough
        rw [enough]
        exact nofun
      rw [loadAnyOr, if_neg plain]
      exact named loader plain
  | succ limit inductionHypothesis =>
      rw [loadAnyOr, loadAny]
      by_cases plain : name.toList.head? ≠ some '['
      · rw [if_neg plain, if_neg plain]
        exact named loader plain
      · rw [if_pos (not_not.1 plain), if_pos (not_not.1 plain)]
        intro start here
        apply runFrom_answering_congr
        rw [runFrom_bind_ok runFrom_get, runFrom_bind_ok runFrom_get]
        cases start.findLoaded loader name with
        | some id => rfl
        | none =>
            refine loadArray_agree perpetual starting (loadNamed_findsPlain defines)
              (fun loader name => named loader) (fun key shorter => ⟨?_, ?_⟩) start here
            · exact inductionHypothesis key (by omega)
            · exact Evolving.of_ends fun _ sound =>
                (loadAny_finding defines limit loader key (by omega) sound).ends

/-! ### Definitions under way -/

theorem name?_of_allocate {file : ClassFile} {type : Class}
    (allocated : Class.allocate file loader = .ok type) : file.name? = some type.name := by
  obtain ⟨kind, _, _, _, heads⟩ := allocate_eq allocated
  refine (heads file ?_).1
  rw [Class.file?, Class.declared?, kind]
  rfl

/-- A class comes in as it was allocated. -/
theorem Sound.addAllocated {file : ClassFile} {type : Class} (sound : world.Sound)
    (present : world.HasLoader loader) (allocated : Class.allocate file loader = .ok type) :
    (world.addType type).2.Sound := by
  obtain ⟨kind, _, _, home, heads⟩ := allocate_eq allocated
  exact sound.addDeclared kind (home ▸ present) heads

/-- Definitions are under way at the places on the stack, which are among the given ones, and there
are fewer of these than definitions that may be under way. -/
structure Nested (places : List (LoaderId × String)) (depth : Nat)
    (stack : List (LoaderId × String)) (world : World) : Prop where
  sound : world.Sound
  listed : ∀ loader name file, world.fileFor loader name = .ok (some file) →
    file.name? = some name → (loader, name) ∈ places
  distinct : stack.Nodup
  among : ∀ place ∈ stack, place ∈ places
  underWay : ∀ place ∈ stack, world.Defining place.1 place.2
  room : places.length < depth + stack.length

namespace Nested

variable {places stack : List (LoaderId × String)} {depth : Nat}

theorem perpetual : Perpetual (Nested places depth stack) where
  sound nested := nested.sound
  evolves nested evolves := by
    refine ⟨evolves.sound, ?_, nested.distinct, nested.among, ?_, nested.room⟩
    · intro loader name file found
      rw [evolves.settles.alike.files] at found
      exact nested.listed loader name file found
    · intro place onStack
      rw [Defining, evolves.settles.defining]
      exact nested.underWay place onStack

theorem starting (nested : Nested places depth stack world) :
    Nested places depth stack (world.starting loader name) where
  sound := nested.sound.starting loader name
  listed other key file found :=
    nested.listed other key file ((alike_starting world loader name).files other key ▸ found)
  distinct := nested.distinct
  among := nested.among
  underWay place onStack := (nested.underWay place onStack).starting name
  room := nested.room

/-- A class for which the loader has the file comes in, and its definition is one more under way. -/
theorem push {file : ClassFile} {type : Class} (nested : Nested places (depth + 1) stack world)
    (idle : ¬ world.Defining loader name) (found : world.fileFor loader name = .ok (some file))
    (allocated : Class.allocate file loader = .ok type) (named : type.name = name) :
    Nested places depth ((loader, name) :: stack)
      ((world.starting loader name).addType type).2 := by
  have present := hasLoader_of_fileFor found
  have declares := (name?_of_allocate allocated).trans (congrArg some named)
  have sound := (nested.sound.starting loader name).addAllocated
    ((keepsLoaders_modifyDirectory world loader _).hasLoader_iff.2 present) allocated
  have listed := nested.listed loader name file found declares
  refine ⟨sound, nested.starting.listed, ?_, ?_, ?_, ?_⟩
  · refine List.nodup_cons.2 ⟨fun onStack => idle (nested.underWay _ onStack), nested.distinct⟩
  · exact List.forall_mem_cons.2 ⟨listed, nested.among⟩
  · refine List.forall_mem_cons.2 ⟨?_, nested.starting.underWay⟩
    change (world.starting loader name).Defining loader name
    rw [Defining, defining_starting, if_pos ⟨rfl, present⟩]
    exact List.mem_cons_self
  · have room := nested.room
    rw [List.length_cons]
    omega

/-- There are no more definitions under way than places. -/
theorem not_exhausted (nested : Nested places 0 stack world) : False := by
  have fewer := (List.Nodup.subperm nested.distinct nested.among).length_le
  have room := nested.room
  omega

end Nested

/-- As long as there is room for more definitions, loading comes to its end without what is beyond.
-/
theorem loadWithinOr_agree (beyond bottom : Load) (places : List (LoaderId × String)) (depth : Nat)
    (stack : List (LoaderId × String)) (loader : LoaderId) (name : String) :
    Agree (Nested places depth stack) (loadWithinOr beyond bottom depth loader name)
      (loadWithin depth loader name) := by
  induction depth generalizing stack loader name with
  | zero => exact fun _ nested => nested.not_exhausted.elim
  | succ depth inductionHypothesis =>
      refine loadAnyOr_agree Nested.perpetual Nested.starting
        (defines_defineFrom (loadWithin_finds depth)) (fun loader name world nested idle => ?_)
        name.length loader name (Nat.le_refl _)
      rw [runFrom_bind_ok runFrom_get, runFrom_bind_ok runFrom_get]
      refine runFrom_defineFrom_congr fun file type found allocated named => ?_
      have found : world.fileFor loader name = .ok (some file) := by
        rw [← (alike_starting world loader name).files loader name]
        exact found
      exact linkWith_agree (inductionHypothesis ((loader, name) :: stack)) Nested.perpetual
        (loadWithin_finds depth) _ _ (nested.push idle found allocated named)

theorem loadWithinOr_add (beyond bottom : Load) (depth more : Nat) :
    loadWithinOr beyond bottom (depth + more) =
      loadWithinOr beyond (loadWithinOr beyond bottom more) depth := by
  induction depth with
  | zero => rw [Nat.zero_add, loadWithinOr]
  | succ depth inductionHypothesis =>
      rw [Nat.succ_add, loadWithinOr, loadWithinOr, inductionHypothesis]

/-- Loading does what it does without what lies beyond its limits, and without limits. -/
theorem Sound.loadWithinOr_eq (sound : world.Sound) (beyond bottom : Load) {depth : Nat}
    (enough : world.definitionLimit ≤ depth) (loader : LoaderId) (name : String) :
    runFrom world (loadWithinOr beyond bottom depth loader name) =
      runFrom world (load loader name) := by
  have nested : Nested world.places world.definitionLimit [] world :=
    ⟨sound, fun _ _ _ => mem_places, .nil, nofun, nofun, world.length_places_lt⟩
  obtain ⟨more, rfl⟩ := Nat.exists_eq_add_of_le enough
  rw [loadWithinOr_add, loadWithinOr_agree beyond _ world.places _ [] loader name world nested,
    load, runFrom_bind_ok runFrom_get]

/-! ### Loading by loading -/

theorem Settles.definitionLimit_eq (settles : world.Settles later) :
    later.definitionLimit = world.definitionLimit := by
  refine World.definitionLimit_eq settles.size fun loader => ?_
  by_cases present : world.HasLoader loader
  · exact settles.sources loader present
  · rw [loader_eq_default present, loader_eq_default (mt settles.hasLoader_iff.1 present)]

/-- Defines a class by the sources of the loader, while others are loaded on the way. -/
def defineBySources : Load := fun definer className => do
  defineFrom load definer className ((← get).loader definer).sources

theorem defines_defineBySources : Defines defineBySources := defines_defineFrom load_finds

theorem abstains_defineBySources : Abstains defineBySources := abstains_defineFrom load

/-- Loading within limits is loading by definitions for which others are loaded in turn. -/
theorem Sound.load_unfolds (sound : world.Sound) (loader : LoaderId) (name : String) :
    runFrom world (load loader name) =
      runFrom world (loadAny defineBySources name.length loader name) := by
  let nowhere : Load := fun _ _ => throw (.internal .definitionsNestedTooDeep)
  let kept (other : World) : Prop := other.Sound ∧ other.definitionLimit = world.definitionLimit
  have perpetual : Perpetual kept :=
    ⟨And.left, fun here evolves =>
      ⟨evolves.sound, evolves.settles.definitionLimit_eq.trans here.2⟩⟩
  have starting {other : World} {loader : LoaderId} {name : String} (here : kept other) :
      kept (other.starting loader name) := by
    refine ⟨here.1.starting loader name, (definitionLimit_eq ?_ fun another => ?_).trans here.2⟩
    · exact (keepsLoaders_modifyDirectory other loader _).size
    · rw [World.starting, loader_modifyDirectory]
      split <;> rfl
  have agree (loader : LoaderId) (name : String) :
      Agree kept (loadWithinOr nowhere nowhere world.definitionLimit loader name)
        (load loader name) := fun _ here =>
    here.1.loadWithinOr_eq nowhere nowhere (Nat.le_of_eq here.2) loader name
  rw [← sound.loadWithinOr_eq nowhere nowhere (Nat.le_succ _), loadWithinOr]
  refine loadAnyOr_agree perpetual starting defines_defineBySources
    (fun definer className other here _ => ?_) name.length loader name (Nat.le_refl _) world
      ⟨sound, rfl⟩
  unfold defineBySources
  rw [runFrom_bind_ok runFrom_get, runFrom_bind_ok runFrom_get]
  refine runFrom_defineFrom_congr fun file type found allocated named => ?_
  have begun : kept (other.starting definer className) := starting here
  have present : (other.starting definer className).HasLoader definer := hasLoader_of_fileFor found
  have added : kept ((other.starting definer className).addType type).2 :=
    ⟨begun.1.addAllocated present allocated,
      (Settles.addType _ type).definitionLimit_eq.trans begun.2⟩
  exact linkWith_agree agree perpetual load_finds _ _ added

theorem Sound.load_of_plain (sound : world.Sound) (plain : name.toList.head? ≠ some '[') :
    runFrom world (load loader name) = runFrom world (loadNamed defineBySources loader name) := by
  rw [sound.load_unfolds, loadAny_of_plain _ _ plain]

end JavaMachine.World
