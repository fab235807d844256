import JavaMachine.Proofs.Declarations
import JavaMachine.Proofs.Dispatch
import JavaMachine.Proofs.Interfaces
import JavaMachine.Proofs.Searches

/-!
# Searches for members

A search for a method finds the declaration in the nearest class, or else one in an interface above.
A search for a field goes through the class, through all that its interfaces have above them and
then on to the superclass. Neither misses a declaration, whatever the shape of the hierarchy.
-/

namespace JavaMachine
namespace World

variable {world : World} {id interface type : ClassId} {name descriptor : String}
variable {method : Method} {field : Field} {holds : ClassId → Prop}

/-- The nearest class with a property: the class itself, or the one nearest to its superclass. -/
inductive NearestWith (world : World) (holds : ClassId → Prop) : ClassId → ClassId → Prop where
  | here {id : ClassId} (here : holds id) : NearestWith world holds id id
  | above {id superclass type : ClassId} (none : ¬ holds id)
      (above : (world.type id).superclass? = some superclass)
      (nearest : NearestWith world holds superclass type) : NearestWith world holds id type

theorem exists_nearestWith {ancestor : ClassId} (inherits : world.Inherits id ancestor)
    (has : holds ancestor) : ∃ type, world.NearestWith holds id type := by
  induction inherits using Relation.ReflTransGen.head_induction_on with
  | refl => exact ⟨ancestor, .here has⟩
  | @head id superclass above _ inductionHypothesis =>
      by_cases here : holds id
      · exact ⟨id, .here here⟩
      · obtain ⟨type, nearest⟩ := inductionHypothesis
        exact ⟨type, .above here above nearest⟩

theorem NearestWith.has (nearest : world.NearestWith holds id type) : holds type := by
  induction nearest with
  | here here => exact here
  | above _ _ _ inductionHypothesis => exact inductionHypothesis

theorem NearestWith.inherits (nearest : world.NearestWith holds id type) :
    world.Inherits id type := by
  induction nearest with
  | here => exact .refl
  | above _ above _ inductionHypothesis => exact .head above inductionHypothesis

/-- A search for a method by a name and a descriptor finds one if and only if a class on the chain
of superclasses or an interface above declares it: the one declared in the nearest class, or else
one that an interface declares. -/
structure ResolvesMethod (world : World) (name descriptor : String) (id : ClassId) : Prop where
  found : (world.findMethod id name descriptor).isSome ↔ ∃ type method,
    (world.Inherits id type ∨ (world.type type).isInterface ∧ world.Reaches id type) ∧
      world.MethodIn type name descriptor method
  nearest : (∃ ancestor method, world.Inherits id ancestor ∧
      world.MethodIn ancestor name descriptor method) →
    ∃ type method, world.NearestWith (world.DeclaresMethod name descriptor) id type ∧
      world.MethodIn type name descriptor method ∧
        world.findMethod id name descriptor = some method
  interface : (∀ ancestor method, world.Inherits id ancestor →
      ¬ world.MethodIn ancestor name descriptor method) →
    ∀ method, world.findMethod id name descriptor = some method →
      ∃ interface, (world.type interface).isInterface ∧ world.Reaches id interface ∧
        world.MethodIn interface name descriptor method

/-- A search for a field by a name and a descriptor finds one if and only if the class or a type
above declares it: the class's own, or else one declared at or above one of its interfaces, or else
what a search from the superclass finds. -/
structure ResolvesField (world : World) (name descriptor : String) (id : ClassId) : Prop where
  found : (world.findField id name descriptor).isSome ↔ ∃ type field,
    world.Reaches id type ∧ world.FieldIn type name descriptor field
  own : ∀ field, world.FieldIn id name descriptor field →
    (world.findField id name descriptor).map FieldSlot.field = some field
  interface : (∀ field, ¬ world.FieldIn id name descriptor field) →
    (∃ interface ∈ (world.type id).interfaces, ∃ type field, world.Reaches interface type ∧
      world.FieldIn type name descriptor field) →
    ∃ interface ∈ (world.type id).interfaces, ∃ type field, world.Reaches interface type ∧
      world.FieldIn type name descriptor field ∧
        (world.findField id name descriptor).map FieldSlot.field = some field
  superclass : (∀ field, ¬ world.FieldIn id name descriptor field) →
    (∀ interface ∈ (world.type id).interfaces, ∀ type field, world.Reaches interface type →
      ¬ world.FieldIn type name descriptor field) →
    world.findField id name descriptor =
      (world.type id).superclass?.bind (world.findField · name descriptor)

/-! ### Interfaces above -/

/-- An interface above is the class itself or declared as an interface by a type on the way. -/
theorem Sound.implemented_of_isInterface (sound : world.Sound)
    (linked : ∃ linkage, (world.type id).linkage? = some linkage) (reaches : world.Reaches id type)
    (isInterface : (world.type type).isInterface) : type = id ∨ world.Implemented id type := by
  rcases Relation.ReflTransGen.cases_tail reaches with same | ⟨last, reaches, step⟩
  · exact .inl same
  · rcases List.mem_append.1 step with superclass | declared
    · obtain ⟨linkage, linkedLast⟩ := sound.reaches_linked linked reaches
      obtain ⟨_, _, fits⟩ := sound.fits linkedLast
      rw [Class.superclass?_of_linkage linkedLast] at superclass
      exact absurd isInterface (fits.superclass type (Option.mem_toList.1 superclass))
    · exact .inr ⟨last, reaches, declared⟩

theorem Sound.isInterface_of_implemented (sound : world.Sound)
    (linked : ∃ linkage, (world.type id).linkage? = some linkage)
    (implemented : world.Implemented id interface) :
    (world.type interface).isInterface ∧ world.Reaches id interface := by
  obtain ⟨type, reaches, declared⟩ := implemented
  obtain ⟨linkage, linkedType⟩ := sound.reaches_linked linked reaches
  obtain ⟨_, _, fits⟩ := sound.fits linkedType
  have step := Class.mem_supertypes_of_interface declared
  rw [Class.interfaces_of_linkage linkedType] at declared
  exact ⟨fits.isInterface interface declared, reaches.tail step⟩

theorem Implemented.head {supertype : ClassId} (step : supertype ∈ (world.type id).supertypes)
    (implemented : world.Implemented supertype interface) : world.Implemented id interface := by
  obtain ⟨type, reaches, declared⟩ := implemented
  exact ⟨type, .head step reaches, declared⟩

/-! ### The recursions -/

section Recursions

variable (finds : world.FindsMembers name descriptor)
  (clean : world.Clean)
include finds clean

theorem FindsMembers.findClassMethod_of_nearest
    (nearest : world.NearestWith
      (fun type => ((world.type type).declaredMethod? name descriptor).isSome) id type)
    (declared : ¬ (world.type id).isArray) :
    world.findClassMethod name descriptor id =
      (world.type type).declaredMethod? name descriptor := by
  induction nearest with
  | here here =>
      obtain ⟨method, known⟩ := Option.isSome_iff_exists.1 here
      rw [finds.classMethod.solves declared, nearestStep, known, Option.some_or]
  | above none above _ inductionHypothesis =>
      have goesOn := inductionHypothesis (clean.declared_of_links declared
        (.inl (Class.mem_supertypes_of_superclass above)))
      rw [finds.classMethod.solves declared, nearestStep, Option.not_isSome_iff_eq_none.1 none,
        Option.none_or, above, Option.bind_some, goesOn]

/-- What the search among interfaces finds is declared by one of them. -/
theorem FindsMembers.exists_of_findInterfaceMethod (declared : ¬ (world.type id).isArray)
    (found : world.findInterfaceMethod name descriptor id = some method) :
    ∃ interface, world.Implemented id interface ∧
      (world.type interface).declaredMethod? name descriptor = some method := by
  induction id using clean.wellFounded_links.induction with
  | _ id inductionHypothesis =>
      rw [finds.interfaceMethod.solves declared, interfaceStep] at found
      have above {supertype : ClassId} (step : supertype ∈ (world.type id).supertypes)
          (found : world.findInterfaceMethod name descriptor supertype = some method) :
          ∃ interface, world.Implemented id interface ∧
            (world.type interface).declaredMethod? name descriptor = some method := by
        obtain ⟨interface, implemented, known⟩ := inductionHypothesis supertype (.inl step)
          (clean.declared_of_links declared (.inl step)) found
        exact ⟨interface, implemented.head step, known⟩
      rcases Option.or_eq_some_iff.1 found with among | ⟨_, beyond⟩
      · obtain ⟨interface, membership, found⟩ := List.exists_of_findSome?_eq_some among
        rcases Option.or_eq_some_iff.1 found with here | ⟨_, rest⟩
        · exact ⟨interface, ⟨id, .refl, membership⟩, here⟩
        · exact above (Class.mem_supertypes_of_interface membership) rest
      · obtain ⟨superclass, isSuperclass, rest⟩ := Option.bind_eq_some_iff.1 beyond
        exact above (Class.mem_supertypes_of_superclass isSuperclass) rest

/-- The search among interfaces misses none of them. -/
theorem FindsMembers.isSome_findInterfaceMethod (declared : ¬ (world.type id).isArray)
    (implemented : world.Implemented id interface)
    (known : ((world.type interface).declaredMethod? name descriptor).isSome) :
    (world.findInterfaceMethod name descriptor id).isSome := by
  obtain ⟨type, reaches, among⟩ := implemented
  induction reaches using Relation.ReflTransGen.head_induction_on with
  | refl =>
      rw [finds.interfaceMethod.solves declared, interfaceStep, Option.isSome_or, Bool.or_eq_true]
      refine .inl (List.findSome?_isSome_iff.2 ⟨interface, among, ?_⟩)
      rw [Option.isSome_or, known, Bool.true_or]
  | @head id supertype step _ inductionHypothesis =>
      have beyond := inductionHypothesis (clean.declared_of_links declared (.inl step))
      rw [finds.interfaceMethod.solves declared, interfaceStep, Option.isSome_or, Bool.or_eq_true]
      rcases List.mem_append.1 step with superclass | membership
      · rw [Option.mem_toList.1 superclass, Option.bind_some]
        exact .inr beyond
      · refine .inl (List.findSome?_isSome_iff.2 ⟨supertype, membership, ?_⟩)
        rw [Option.isSome_or, beyond, Bool.or_true]

omit clean in
/-- The search for fields goes through the class, its interfaces and its superclass. -/
theorem FindsMembers.findField_eq (declared : ¬ (world.type id).isArray) :
    world.findField id name descriptor = ((world.type id).declaredField? name descriptor).or
      (((world.type id).interfaces.findSome? (world.findField · name descriptor)).or
        ((world.type id).superclass?.bind (world.findField · name descriptor))) :=
  finds.field.solves declared

/-- The search for fields misses no type above. -/
theorem FindsMembers.isSome_findField (declared : ¬ (world.type id).isArray)
    (reaches : world.Reaches id type)
    (known : ((world.type type).declaredField? name descriptor).isSome) :
    (world.findField id name descriptor).isSome := by
  induction reaches using Relation.ReflTransGen.head_induction_on with
  | refl => rw [finds.findField_eq declared, Option.isSome_or, known, Bool.true_or]
  | @head id supertype step _ inductionHypothesis =>
      have beyond := inductionHypothesis (clean.declared_of_links declared (.inl step))
      rw [finds.findField_eq declared, Option.isSome_or, Option.isSome_or, Bool.or_eq_true,
        Bool.or_eq_true]
      rcases List.mem_append.1 step with superclass | membership
      · rw [Option.mem_toList.1 superclass, Option.bind_some]
        exact .inr (.inr beyond)
      · exact .inr (.inl (List.findSome?_isSome_iff.2 ⟨supertype, membership, beyond⟩))

end Recursions

/-! ### What is found -/

section Found

variable (clean : world.Clean) (linked : ∃ linkage, (world.type id).linkage? = some linkage)
  (plain : ∀ type, world.Reaches id type → world.Plain type) (unbroken : ' ' ∉ name.toList)
include clean linked plain unbroken

theorem Clean.declaredMethod?_iff (reaches : world.Reaches id type) :
    (world.type type).declaredMethod? name descriptor = some method ↔
      world.MethodIn type name descriptor method :=
  clean.sound.declaredMethod?_eq_some (clean.sound.reaches_linked linked reaches)
    (plain type reaches) unbroken

theorem Clean.isSome_declaredMethod?_iff (reaches : world.Reaches id type) :
    ((world.type type).declaredMethod? name descriptor).isSome ↔
      world.DeclaresMethod name descriptor type := by
  simp only [Option.isSome_iff_exists, clean.declaredMethod?_iff linked plain unbroken reaches,
    DeclaresMethod]

/-- The search among classes finds the declaration in the nearest one. -/
theorem Clean.findMethod_of_inherits {ancestor : ClassId} (inherits : world.Inherits id ancestor)
    (declares : world.MethodIn ancestor name descriptor method) :
    ∃ type method, world.NearestWith (world.DeclaresMethod name descriptor) id type ∧
      world.MethodIn type name descriptor method ∧
        world.findMethod id name descriptor = some method := by
  have finds := clean.findsMembers name descriptor
  obtain ⟨linkage, linkedTo⟩ := linked
  have declared := Class.not_isArray_of_linkage? linkedTo
  -- along the chain what a class finds under its keys is what it declares
  have same {here there : ClassId} (reaches : world.Reaches id here)
      (nearest : world.NearestWith (world.DeclaresMethod name descriptor) here there) :
      world.NearestWith (fun type =>
        ((world.type type).declaredMethod? name descriptor).isSome) here there := by
    induction nearest with
    | here has =>
        exact .here ((clean.isSome_declaredMethod?_iff ⟨_, linkedTo⟩ plain unbroken reaches).2 has)
    | above absent above _ inductionHypothesis =>
        refine .above (fun found => absent ?_) above (inductionHypothesis
          (reaches.tail (Class.mem_supertypes_of_superclass above)))
        exact (clean.isSome_declaredMethod?_iff ⟨_, linkedTo⟩ plain unbroken reaches).1 found
  have has : world.DeclaresMethod name descriptor ancestor := ⟨method, declares⟩
  obtain ⟨type, nearest⟩ := exists_nearestWith inherits has
  obtain ⟨method, declares⟩ := nearest.has
  have found := (clean.declaredMethod?_iff ⟨_, linkedTo⟩ plain unbroken
    (reaches_of_inherits nearest.inherits)).2 declares
  refine ⟨type, method, nearest, declares, ?_⟩
  rw [finds.method, finds.findClassMethod_of_nearest clean (same .refl nearest) declared, found,
    Option.some_or]

/-- What is found is declared by a class on the chain or by an interface above. -/
theorem Clean.exists_of_findMethod (found : world.findMethod id name descriptor = some method) :
    (∃ ancestor, world.Inherits id ancestor ∧ world.MethodIn ancestor name descriptor method) ∨
      ∃ interface, (world.type interface).isInterface ∧ world.Reaches id interface ∧
        world.MethodIn interface name descriptor method := by
  have finds := clean.findsMembers name descriptor
  have declared : ¬ (world.type id).isArray := Class.not_isArray_of_linkage? linked.choose_spec
  rw [finds.method] at found
  rcases Option.or_eq_some_iff.1 found with among | ⟨_, beyond⟩
  · obtain ⟨ancestor, visited, known⟩ := List.exists_of_findSome?_eq_some among
    have inherits := inherits_of_mem_superclassesWithin visited
    exact .inl ⟨ancestor, inherits, (clean.declaredMethod?_iff linked plain unbroken
      (reaches_of_inherits inherits)).1 known⟩
  · obtain ⟨interface, implemented, known⟩ :=
      finds.exists_of_findInterfaceMethod clean declared beyond
    obtain ⟨isInterface, reaches⟩ := clean.sound.isInterface_of_implemented linked implemented
    exact .inr ⟨interface, isInterface, reaches,
      (clean.declaredMethod?_iff linked plain unbroken reaches).1 known⟩

theorem Clean.resolvesMethod : world.ResolvesMethod name descriptor id where
  found := by
    constructor
    · intro found
      obtain ⟨method, found⟩ := Option.isSome_iff_exists.1 found
      rcases clean.exists_of_findMethod linked plain unbroken found with
        ⟨ancestor, inherits, declares⟩ | ⟨interface, isInterface, reaches, declares⟩
      · exact ⟨ancestor, method, .inl inherits, declares⟩
      · exact ⟨interface, method, .inr ⟨isInterface, reaches⟩, declares⟩
    · rintro ⟨type, method, inherits | ⟨isInterface, reaches⟩, declares⟩
      · obtain ⟨_, _, _, _, found⟩ :=
          clean.findMethod_of_inherits linked plain unbroken inherits declares
        exact Option.isSome_of_eq_some found
      · rcases clean.sound.implemented_of_isInterface linked reaches isInterface with
          rfl | implemented
        · obtain ⟨_, _, _, _, found⟩ :=
            clean.findMethod_of_inherits linked plain unbroken .refl declares
          exact Option.isSome_of_eq_some found
        · have finds := clean.findsMembers name descriptor
          have known := (clean.declaredMethod?_iff linked plain unbroken reaches).2 declares
          rw [finds.method, Option.isSome_or, finds.isSome_findInterfaceMethod clean
            (Class.not_isArray_of_linkage? linked.choose_spec) implemented
            (Option.isSome_of_eq_some known), Bool.or_true]
  nearest := fun ⟨_, _, inherits, declares⟩ =>
    clean.findMethod_of_inherits linked plain unbroken inherits declares
  interface := by
    intro absent method found
    rcases clean.exists_of_findMethod linked plain unbroken found with
      ⟨ancestor, inherits, declares⟩ | above
    · exact absurd declares (absent ancestor method inherits)
    · exact above

variable (apart : world.Apart id)
include apart

theorem Clean.declaredField?_iff (reaches : world.Reaches id type) :
    ((world.type type).declaredField? name descriptor).map FieldSlot.field = some field ↔
      world.FieldIn type name descriptor field :=
  clean.sound.declaredField?_eq_some (clean.sound.reaches_linked linked reaches)
    (fun above reachesAbove => plain above (reaches.trans reachesAbove)) (apart type reaches)
    unbroken

/-- What is found is declared by the class or by a type above. -/
theorem Clean.exists_of_findField {start : ClassId} {slot : FieldSlot}
    (reaches : world.Reaches id start)
    (found : world.findField start name descriptor = some slot) :
    ∃ type, world.Reaches start type ∧ world.FieldIn type name descriptor slot.field := by
  obtain ⟨_, type, _, _, _, known, above⟩ := findField_eq_some found
  exact ⟨type, above, (clean.declaredField?_iff linked plain unbroken apart (reaches.trans above)).1
    (by rw [known, Option.map_some])⟩

theorem Clean.isSome_findField {start : ClassId} (reaches : world.Reaches id start)
    (above : world.Reaches start type) (declares : world.FieldIn type name descriptor field) :
    (world.findField start name descriptor).isSome := by
  have known :=
    (clean.declaredField?_iff linked plain unbroken apart (reaches.trans above)).2 declares
  obtain ⟨linkage, linkedStart⟩ := clean.sound.reaches_linked linked reaches
  refine (clean.findsMembers name descriptor).isSome_findField clean
    (Class.not_isArray_of_linkage? linkedStart) above ?_
  rw [← Option.isSome_map, known, Option.isSome_some]

theorem Clean.resolvesField : world.ResolvesField name descriptor id := by
  have finds := clean.findsMembers name descriptor
  have search := finds.findField_eq (Class.not_isArray_of_linkage? linked.choose_spec)
  have absent (nowhere : ∀ field, ¬ world.FieldIn id name descriptor field) :
      (world.type id).declaredField? name descriptor = none := by
    cases known : (world.type id).declaredField? name descriptor with
    | none => rfl
    | some slot =>
        refine absurd ((clean.declaredField?_iff linked plain unbroken apart .refl).1 ?_)
          (nowhere slot.field)
        rw [known, Option.map_some]
  constructor
  case found =>
    constructor
    · intro found
      obtain ⟨slot, found⟩ := Option.isSome_iff_exists.1 found
      obtain ⟨type, above, declares⟩ :=
        clean.exists_of_findField linked plain unbroken apart .refl found
      exact ⟨type, slot.field, above, declares⟩
    · rintro ⟨type, field, above, declares⟩
      exact clean.isSome_findField linked plain unbroken apart .refl above declares
  case own =>
    intro field declares
    obtain ⟨slot, known, same⟩ := Option.map_eq_some_iff.1
      ((clean.declaredField?_iff linked plain unbroken apart .refl).2 declares)
    rw [search, known, Option.some_or, Option.map_some, same]
  case interface =>
    rintro nowhere ⟨interface, declared, type, field, above, declares⟩
    have step := Class.mem_supertypes_of_interface declared
    have known : ((world.type id).interfaces.findSome?
        (world.findField · name descriptor)).isSome :=
      List.findSome?_isSome_iff.2 ⟨interface, declared,
        clean.isSome_findField linked plain unbroken apart (.single step) above declares⟩
    obtain ⟨slot, known⟩ := Option.isSome_iff_exists.1 known
    obtain ⟨first, declaredFirst, found⟩ := List.exists_of_findSome?_eq_some known
    obtain ⟨typeFirst, aboveFirst, declaresFirst⟩ := clean.exists_of_findField linked plain unbroken
      apart (.single (Class.mem_supertypes_of_interface declaredFirst)) found
    refine ⟨first, declaredFirst, typeFirst, slot.field, aboveFirst, declaresFirst, ?_⟩
    rw [search, absent nowhere, Option.none_or, known, Option.some_or, Option.map_some]
  case superclass =>
    intro nowhere noInterface
    have unknown : (world.type id).interfaces.findSome?
        (world.findField · name descriptor) = none := by
      refine List.findSome?_eq_none_iff.2 fun interface declared => ?_
      cases found : world.findField interface name descriptor with
      | none => rfl
      | some slot =>
          obtain ⟨type, above, declares⟩ := clean.exists_of_findField linked plain unbroken apart
            (.single (Class.mem_supertypes_of_interface declared)) found
          exact absurd declares (noInterface interface declared type slot.field above)
    rw [search, absent nowhere, Option.none_or, unknown, Option.none_or]

end Found
end World

/-- In all worlds that are met a search for a method from a linked class misses no declaration and
finds the nearest, if names are without blanks. A search for a field misses none either and finds
them in order, unless two classes of one name are above each other; those are not as long as
directories are spared. -/
theorem Session.members_resolved {session : Session} {world : World}
    (among : world ∈ session.worlds) {id : ClassId} (linked : (world.type id).linkage?.isSome)
    (plain : ∀ type, world.Reaches id type → world.Plain type) {name : String}
    (unbroken : ' ' ∉ name.toList) (descriptor : String) :
    world.ResolvesMethod name descriptor id ∧
      (world.Apart id → world.ResolvesField name descriptor id) ∧
        (session.Spares → world.Loaded id → world.Apart id) := by
  have clean := World.Met.clean ⟨session, among⟩
  have linked := Option.isSome_iff_exists.1 linked
  exact ⟨clean.resolvesMethod linked plain unbroken, clean.resolvesField linked plain unbroken,
    fun spares loaded => (spares.faithful among).apart loaded linked⟩

/-! ### Two classes of one name -/

namespace Twins

set_option maxRecDepth 20000

def base : Source := .holding
  [("java/lang/Object", .withoutMembers 0x0021 "java/lang/Object" "" []),
    ("I", .withMembers 0x0601 "I" "java/lang/Object" [] [("m", "()V", 0x0001)]
      [("x", "I", 0x0008)])]

/-- Here `B` extends a class `A`, which has a field. -/
def former : Source := .holding
  [("A", .withMembers 0x0021 "A" "java/lang/Object" [] [("m", "()V", 0x0001)] [("x", "I", 0)]),
    ("B", .withoutMembers 0x0021 "B" "A" [])]

/-- Here another `A` extends `B` and implements `I`, which has a static field of the same name. -/
def latter : Source := .holding [("A", .withoutMembers 0x0021 "A" "B" ["I"])]

/-- `B` is entered for the loader that defines the other `A`. -/
def operations : List Operation :=
  [.addLoader "former" .bootstrap [former], .load ⟨1⟩ "B",
    .addLoader "latter" .bootstrap [latter], .register ⟨2⟩ ⟨0⟩, .load ⟨2⟩ "A"]

def session : Session := .inOrder [base] operations

/-- The world after that. -/
def world : World := (World.initial [base]).after operations

def b : ClassId := ⟨0⟩
def a : ClassId := ⟨1⟩
def other : ClassId := ⟨3⟩
def i : ClassId := ⟨4⟩

theorem met : world ∈ session.worlds :=
  Session.after_mem_worlds (by simp [operations, Operation.runsMethods])

theorem sound : world.Sound := (World.Met.clean ⟨session, met⟩).sound

theorem linked : (world.type b).linkage?.isSome ∧ (world.type other).linkage?.isSome ∧
    (world.type i).linkage?.isSome := by
  decide +kernel

theorem plain (id : ClassId) : world.Plain id := by
  have files : world.classes.all fun type => decide (' ' ∉ type.name.toList) &&
      type.file?.all ClassFile.isPlain := by
    decide +kernel
  refine World.plain_of_files (fun type among => ?_) id
  have here := Array.all_eq_true'.1 files type among
  rw [Bool.and_eq_true, decide_eq_true_eq] at here
  refine ⟨here.1, fun file declared => ?_⟩
  simpa [declared] using here.2

/-- No two classes of one name are above `B`. -/
theorem apart : world.Apart b := by
  have names : ∀ type ∈ world.dispatchOrder b, ∀ above ∈ world.dispatchOrder type,
      (world.type above).name = (world.type type).name → above = type := by
    decide +kernel
  have linked := Option.isSome_iff_exists.1 linked.1
  intro type reaches above reachesAbove
  exact names type ((sound.mem_dispatchOrder linked).2 reaches) above
    ((sound.mem_dispatchOrder (sound.reaches_linked linked reaches)).2 reachesAbove)

/-- The first `A` is above the other one, with a method. -/
theorem above : (world.type other).superclass? = some b ∧ (world.type b).superclass? = some a ∧
    ((world.type a).declaredMethod? "m" "()V").isSome ∧
    (world.findMethod other "m" "()V").map Method.owner = some a := by
  decide +kernel

/-- The field of the first `A` is found from the other one, though `I` declares one. -/
theorem found : (world.findField other "x" "I").map (fun slot => slot.field.owner) = some a ∧
    ((world.type i).declaredField? "x" "I").map (fun slot =>
      (slot.field.name, slot.field.descriptor)) = some ("x", "I") ∧
    (world.type other).file?.map ClassFile.fields = some [] ∧
    (world.type other).interfaces = [i] ∧ a ∉ world.dispatchOrder i := by
  decide +kernel

end Twins

/-- From the other `A` the method of the first one is found, which is nearer than that of `I`; from
`B` fields are found as they should be. -/
theorem Session.members_resolved_twins : Twins.world ∈ Twins.session.worlds ∧
    Twins.world.ResolvesField "x" "I" Twins.b ∧ ∃ type method,
      Twins.world.NearestWith (Twins.world.DeclaresMethod "m" "()V") Twins.other type ∧
      Twins.world.MethodIn type "m" "()V" method ∧
      Twins.world.findMethod Twins.other "m" "()V" = some method ∧ type = Twins.a := by
  obtain ⟨_, fields, _⟩ := members_resolved Twins.met Twins.linked.1
    (fun type _ => Twins.plain type) (by decide : ' ' ∉ "x".toList) "I"
  obtain ⟨methods, _⟩ := members_resolved Twins.met Twins.linked.2.1
    (fun type _ => Twins.plain type) (by decide : ' ' ∉ "m".toList) "()V"
  obtain ⟨first, second, declared, owner⟩ := Twins.above
  have inherits : Twins.world.Inherits Twins.other Twins.a := .head first (.single second)
  have linked := Twins.sound.reaches_linked (Option.isSome_iff_exists.1 Twins.linked.2.1)
    (World.reaches_of_inherits inherits)
  obtain ⟨method, known⟩ := Option.isSome_iff_exists.1 declared
  have declares :=
    (Twins.sound.declaredMethod?_eq_some linked (Twins.plain Twins.a) (by decide)).1 known
  obtain ⟨type, method, nearest, declares, found⟩ :=
    methods.nearest ⟨Twins.a, method, inherits, declares⟩
  refine ⟨Twins.met, fields Twins.apart, type, method, nearest, declares, found, ?_⟩
  rw [found, Option.map_some, Option.some_inj, declares.declares.owner] at owner
  exact owner

/-- The field of the first `A` is found from the other one, which does not declare it; that of the
interface that this declares would come first. -/
theorem Session.twin_found : Twins.world ∈ Twins.session.worlds ∧
    (Twins.world.type Twins.other).linkage?.isSome ∧
    (∀ type, Twins.world.Reaches Twins.other type → Twins.world.Plain type) ∧
    ¬ Twins.world.ResolvesField "x" "I" Twins.other := by
  refine ⟨Twins.met, Twins.linked.2.1, fun type _ => Twins.plain type, fun resolves => ?_⟩
  obtain ⟨owner, declared, none, interfaces, notAbove⟩ := Twins.found
  obtain ⟨slot, known, texts⟩ := Option.map_eq_some_iff.1 declared
  obtain ⟨_, type, above, declares⟩ := Twins.sound.declares_of_find? known
  have nowhere (field : Field) : ¬ Twins.world.FieldIn Twins.other "x" "I" field := by
    rintro ⟨⟨file, isFile, member, listed, _⟩, _, _⟩
    rw [isFile, Option.map_some, Option.some_inj] at none
    rw [none] at listed
    cases listed
  simp only [Prod.mk.injEq] at texts
  obtain ⟨interface, isInterface, type, field, above, declares, found⟩ :=
    resolves.interface nowhere ⟨Twins.i, by simp [interfaces], type, slot.field, above,
      declares, texts.1, texts.2⟩
  obtain ⟨slot, leads, rfl⟩ := Option.map_eq_some_iff.1 found
  rw [leads, Option.map_some, Option.some_inj, declares.declares.owner.1] at owner
  rw [interfaces, List.mem_singleton] at isInterface
  subst isInterface
  exact notAbove (owner ▸ (Twins.sound.mem_dispatchOrder
    (Option.isSome_iff_exists.1 Twins.linked.2.2)).2 above)

end JavaMachine
