import JavaMachine.Proofs.Assignability
import JavaMachine.Proofs.Sparing

/-!
# Tables of interfaces

Linking merges the interfaces that the supertypes know into one table by name. Nothing is lost or
replaced where two of them bring a name: a loader sees one class of a name only, and it sees all
types above the classes that it defines. So the table of a class holds what types above it declare.
-/

namespace JavaMachine
namespace World

variable {world : World} {id type supertype interface target : ClassId} {linkage : Linkage}
variable {name : String}

/-- The class or a type above it declares the interface. -/
def Implemented (world : World) (id interface : ClassId) : Prop :=
  ∃ type, world.Reaches id type ∧ interface ∈ (world.type type).interfaces

/-- The loader of a linked class sees the types above, whether or not the class itself is entered in
a directory. -/
theorem Regular.sees_above (regular : world.Regular) (sound : world.Sound)
    (linked : (world.type id).linkage? = some linkage) (reaches : world.Reaches id type)
    (above : supertype ∈ (world.type type).supertypes) :
    world.Sees (world.type id).loader supertype := by
  obtain ⟨file, declares, _⟩ := sound.fits linked
  have names := regular.links id file linkage declares linked
  rcases Relation.ReflTransGen.cases_head reaches with same | ⟨first, step, reaches⟩
  · rw [← same, supertypes_of_linkage linked] at above
    exact names.supertypes supertype above
  · rw [supertypes_of_linkage linked] at step
    exact regular.sees_of_reaches sound (names.supertypes first step) (reaches.tail above)

/-- A class knows the interfaces that types above declare, by their own names. -/
theorem Regular.interface?_of_implemented (regular : world.Regular) (sound : world.Sound)
    (linked : (world.type id).linkage? = some linkage)
    (implemented : world.Implemented id interface) :
    (world.type id).interface? (world.type interface).name = some interface := by
  obtain ⟨type, reaches, declared⟩ := implemented
  obtain ⟨own, linkedAbove⟩ := sound.reaches_linked ⟨_, linked⟩ reaches
  have known := declared
  rw [Class.interfaces_of_linkage linkedAbove] at known
  obtain ⟨other, found⟩ := Option.isSome_iff_exists.1
    (sound.isSome_interface?_of_reaches ⟨_, linked⟩ reaches
      (Option.isSome_of_eq_some (regular.interface?_of_mem_interfaces sound linkedAbove known)))
  rw [Class.interface?, linked, Option.bind_some] at found
  obtain ⟨file, declares, _⟩ := sound.fits linked
  obtain ⟨same, seesOther⟩ :=
    (regular.links id file linkage declares linked).allInterfaces _ other found
  have step := Class.mem_supertypes_of_interface declared
  obtain ⟨_, linkedInterface⟩ := sound.reaches_linked ⟨_, linked⟩ (reaches.tail step)
  rw [Class.interface?, linked, Option.bind_some, found,
    regular.sees_unique sound (regular.sees_above sound linked reaches step)
      (Class.not_isArray_of_linkage? linkedInterface) seesOther same.symm]

/-- What is known by a name has that name. -/
theorem Regular.name_of_interface? (regular : world.Regular) (sound : world.Sound)
    (known : (world.type id).interface? name = some interface) :
    (world.type interface).name = name := by
  obtain ⟨linkage, linked, known⟩ := Option.bind_eq_some_iff.1 known
  obtain ⟨file, declares, _⟩ := sound.fits linked
  exact ((regular.links id file linkage declares linked).allInterfaces name interface known).1

/-- A class knows by a name the interface of that name which it or a type above declares. -/
theorem Regular.interface?_iff (regular : world.Regular) (sound : world.Sound)
    (linked : (world.type id).linkage? = some linkage) :
    (world.type id).interface? name = some interface ↔
      world.Implemented id interface ∧ (world.type interface).name = name := by
  constructor
  · intro known
    exact ⟨sound.declared_of_interface? known, regular.name_of_interface? sound known⟩
  · rintro ⟨implemented, rfl⟩
    exact regular.interface?_of_implemented sound linked implemented

/-! ### The values of the table -/

theorem mem_allInterfaces_iff (linked : (world.type id).linkage? = some linkage) :
    interface ∈ linkage.allInterfaces.values ↔
      ∃ name, (world.type id).interface? name = some interface := by
  simp only [Class.interface?, linked, Option.bind_some, Table.find?_eq_some]
  simp [Table.values]

theorem Regular.mem_allInterfaces_iff_implemented (regular : world.Regular) (sound : world.Sound)
    (linked : (world.type id).linkage? = some linkage) :
    interface ∈ linkage.allInterfaces.values ↔ world.Implemented id interface := by
  simp [mem_allInterfaces_iff linked, regular.interface?_iff sound linked]

/-- The interfaces stand in the table under their names, so each stands there once. -/
theorem Regular.nodup_allInterfaces (regular : world.Regular) (sound : world.Sound)
    (linked : (world.type id).linkage? = some linkage) :
    (linkage.allInterfaces.values.map fun interface => (world.type interface).name).Nodup := by
  have names : (linkage.allInterfaces.values.map fun interface => (world.type interface).name) =
      linkage.allInterfaces.keys := by
    rw [Table.values, Table.keys, List.map_map]
    refine List.map_congr_left fun (name, interface) among => ?_
    have known : (world.type id).interface? name = some interface := by
      rw [Class.interface?, linked, Option.bind_some]
      exact Table.find?_eq_some.2 among
    exact regular.name_of_interface? sound known
  rw [names]
  exact linkage.allInterfaces.keys_nodup

theorem implements_of_linkage (linked : (world.type id).linkage? = some linkage) :
    world.implements id target ↔
      target = id ∨ (world.type id).interface? (world.type target).name = some target := by
  have declared := Class.not_isArray_of_linkage? linked
  rw [implements, Bool.or_eq_true, if_neg declared, decide_eq_true_eq, decide_eq_true_eq]
  exact or_congr_left eq_comm

end World

namespace Session

variable {session : Session} {world : World} {id : ClassId} {linkage : Linkage}

/-- As long as directories are spared, the table of a linked class holds each interface once that
the class or a type above declares, and no other. No two of them have one name, so a name leads to
the one that has it, and the class implements those and itself. -/
theorem interfaces_exact (spares : session.Spares) (among : world ∈ session.worlds)
    (linked : (world.type id).linkage? = some linkage) :
    (∀ interface, interface ∈ linkage.allInterfaces.values ↔
      ∃ type, world.Reaches id type ∧ interface ∈ (world.type type).interfaces) ∧
    linkage.allInterfaces.values.Nodup ∧
    (linkage.allInterfaces.values.map fun interface => (world.type interface).name).Nodup ∧
    (∀ name interface, (world.type id).interface? name = some interface ↔
      interface ∈ linkage.allInterfaces.values ∧ (world.type interface).name = name) ∧
    ∀ target, world.implements id target ↔
      target = id ∨ target ∈ linkage.allInterfaces.values := by
  obtain ⟨⟨sound, _, regular, _⟩, _⟩ := spares.faithful among
  have members (interface : ClassId) :
      interface ∈ linkage.allInterfaces.values ↔ world.Implemented id interface :=
    regular.mem_allInterfaces_iff_implemented sound linked
  have named := regular.nodup_allInterfaces sound linked
  refine ⟨members, named.of_map _, named, fun name interface => ?_, fun target => ?_⟩
  · rw [regular.interface?_iff sound linked, members]
  · rw [World.implements_of_linkage linked, regular.interface?_iff sound linked, members]
    simp

end Session

/-! ### A square -/

namespace Layered

/-- A loader that asks the bootstrap loader defines a class below one of the bootstrap loader, which
declares an interface. -/
def operations : List Operation :=
  [.addLoader "upper" .bootstrap [upper], .load loader "Square"]

def session : Session := .inOrder [base] operations

/-- The world after that. -/
def loaded : World := (World.initial [base]).after operations

def square : ClassId := ⟨0⟩
def shape : ClassId := ⟨3⟩

theorem plain : ∀ operation ∈ operations, operation.runsMethods = false := by
  simp [operations, Operation.runsMethods]

theorem spares : session.Spares := by
  refine Session.abides_inOrder plain fun operation among world => ?_
  simp only [operations, List.mem_cons, List.not_mem_nil, or_false] at among
  rcases among with rfl | rfl <;> exact not_false

theorem loaded_mem : loaded ∈ session.worlds := Session.after_mem_worlds plain

set_option maxRecDepth 20000 in
theorem squareLinked : ((loaded.type square).linkage?.map fun linkage =>
    (linkage.interfaces, linkage.allInterfaces.values)) = some ([], [shape]) ∧
    (loaded.type shape).name = "Shape" ∧ (loaded.type shape).loader = .bootstrap ∧
    (loaded.type square).loader = loader := by
  decide +kernel

end Layered

/-- The class of the upper loader implements the interface that its superclass declares, and knows
it by name. -/
theorem Session.interfaces_exact_layered : Layered.session.Spares ∧
    Layered.loaded ∈ Layered.session.worlds ∧
    Layered.loaded.implements Layered.square Layered.shape ∧
    (Layered.loaded.type Layered.square).interface? "Shape" = some Layered.shape ∧
    ∃ type, Layered.loaded.Reaches Layered.square type ∧
      Layered.shape ∈ (Layered.loaded.type type).interfaces := by
  obtain ⟨tables, name, _⟩ := Layered.squareLinked
  obtain ⟨linkage, linked, tables⟩ := Option.map_eq_some_iff.1 tables
  have known : Layered.shape ∈ linkage.allInterfaces.values := by
    simp only [Prod.mk.injEq] at tables
    simp [tables.2]
  obtain ⟨members, _, _, finds, implements⟩ :=
    Session.interfaces_exact Layered.spares Layered.loaded_mem linked
  exact ⟨Layered.spares, Layered.loaded_mem, (implements _).2 (.inr known),
    (finds _ _).2 ⟨known, name⟩, (members _).1 known⟩

end JavaMachine
