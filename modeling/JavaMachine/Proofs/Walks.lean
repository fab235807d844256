import JavaMachine.Proofs.Hierarchy
import JavaMachine.Proofs.Visibility

/-!
# Walks in later worlds

Usable classes last, and so do the types above them. A walk along the hierarchy that starts at a
usable class therefore visits the same types in every later world, the same methods and fields are
found there, and the same classes are assignable.
-/

namespace JavaMachine

@[simp] theorem World.isArraySupertype_lasting (type : Class) :
    isArraySupertype type.lasting = isArraySupertype type := rfl

end JavaMachine

namespace JavaMachine.World

variable {world later : World} {id source target supertype : ClassId}

theorem Sound.supertype_isSome (sound : world.Sound) (linked : (world.type id).linkage?.isSome)
    (above : supertype ∈ (world.type id).supertypes) : (world.type supertype).linkage?.isSome := by
  obtain ⟨linkage, linked⟩ := Option.isSome_iff_exists.1 linked
  rw [supertypes_of_linkage linked] at above
  exact Option.isSome_iff_exists.2 (sound.supertype_linked linked above)

theorem isAssignable_refl (world : World) (id : ClassId) : world.isAssignable id id := by
  unfold isAssignable isAssignableWithin
  simp

namespace KeepsUsable

theorem isArraySupertype_eq (keeps : world.KeepsUsable later)
    (usable : (world.type id).isUsable) :
    isArraySupertype (later.type id) = isArraySupertype (world.type id) := by
  simpa using congrArg isArraySupertype (keeps id usable)

/-! ### Walks from a linked class -/

section Linked

variable (keeps : world.KeepsUsable later) (sound : world.Sound)
include keeps sound

theorem superclassesWithin_eq (limit : Nat) (linked : (world.type id).linkage?.isSome) :
    later.superclassesWithin limit id = world.superclassesWithin limit id := by
  induction limit generalizing id with
  | zero => rfl
  | succ limit inductionHypothesis =>
      rw [superclassesWithin, superclassesWithin,
        keeps.superclass?_eq (Class.isUsable_of_linkage? linked)]
      cases above : (world.type id).superclass? with
      | none => rfl
      | some superclass =>
          have step := Class.mem_supertypes_of_superclass above
          exact congrArg (id :: ·) (inductionHypothesis (sound.supertype_isSome linked step))

theorem interfacesAfter_eq (limit : Nat) (linked : (world.type id).linkage?.isSome)
    (seen : List ClassId) :
    later.interfacesAfter limit id seen = world.interfacesAfter limit id seen := by
  induction limit generalizing id seen with
  | zero => rfl
  | succ limit inductionHypothesis =>
      have usable := Class.isUsable_of_linkage? linked
      have declared : ∀ seen : List ClassId, ∀ interface ∈ (world.type id).interfaces,
          (if seen.contains interface then seen
            else later.interfacesAfter limit interface (interface :: seen)) =
          if seen.contains interface then seen
            else world.interfacesAfter limit interface (interface :: seen) := by
        intro seen interface among
        have step := Class.mem_supertypes_of_interface among
        rw [inductionHypothesis (sound.supertype_isSome linked step)]
      simp only [interfacesAfter, keeps.interfaces_eq usable, keeps.superclass?_eq usable]
      rw [List.foldl_ext _ _ _ declared]
      cases above : (world.type id).superclass? with
      | none => rfl
      | some superclass =>
          have step := Class.mem_supertypes_of_superclass above
          exact inductionHypothesis (sound.supertype_isSome linked step) _

theorem fieldOrderAfter_eq (limit : Nat) (linked : (world.type id).linkage?.isSome)
    (seen : List ClassId) :
    later.fieldOrderAfter limit id seen = world.fieldOrderAfter limit id seen := by
  induction limit generalizing id seen with
  | zero => rfl
  | succ limit inductionHypothesis =>
      have usable := Class.isUsable_of_linkage? linked
      have declared : ∀ seen : List ClassId, ∀ interface ∈ (world.type id).interfaces,
          later.fieldOrderAfter limit interface seen =
            world.fieldOrderAfter limit interface seen := by
        intro seen interface among
        have step := Class.mem_supertypes_of_interface among
        exact inductionHypothesis (sound.supertype_isSome linked step) seen
      simp only [fieldOrderAfter, keeps.interfaces_eq usable, keeps.superclass?_eq usable]
      rw [List.foldl_ext _ _ _ declared]
      cases above : (world.type id).superclass? with
      | none => rfl
      | some superclass =>
          have step := Class.mem_supertypes_of_superclass above
          simp only [inductionHypothesis (sound.supertype_isSome linked step)]

omit sound in
theorem height_eq (linked : (world.type id).linkage?.isSome) :
    later.height id = world.height id := by
  have usable := Class.isUsable_of_linkage? linked
  obtain ⟨linkage, linkedTo⟩ := Option.isSome_iff_exists.1 linked
  obtain ⟨body, declared, _⟩ := Option.bind_eq_some_iff.1 linkedTo
  have kind := Class.declared?_eq_some.1 declared
  obtain ⟨own, kindLater, _⟩ := Class.declared_of_lasting (keeps id usable) kind
  simp only [height, kind, kindLater]
  exact keeps.linkedHeight_eq linked

theorem superclasses_eq (linked : (world.type id).linkage?.isSome) :
    later.superclasses id = world.superclasses id := by
  rw [superclasses, keeps.height_eq linked, keeps.superclassesWithin_eq sound _ linked,
    superclasses]

/-- A name and a descriptor lead from a linked class to the same method. -/
theorem findMethod_eq (linked : (world.type id).linkage?.isSome) (name descriptor : String) :
    later.findMethod id name descriptor = world.findMethod id name descriptor := by
  have order : later.methodOrder id = world.methodOrder id := by
    rw [methodOrder, keeps.superclasses_eq sound linked, interfaceOrder, keeps.height_eq linked,
      keeps.interfacesAfter_eq sound _ linked, ← interfaceOrder, ← methodOrder]
  have declared : ∀ type ∈ world.methodOrder id, (later.type type).declaredMethod? name descriptor =
      (world.type type).declaredMethod? name descriptor := by
    intro type visited
    have reached := sound.reaches_linked (Option.isSome_iff_exists.1 linked)
      (reaches_of_mem_methodOrder visited)
    rw [Class.declaredMethod?, keeps.methods_eq (Option.isSome_iff_exists.2 reached),
      Class.declaredMethod?]
  rw [findMethod, findMethod, order, ← List.head?_filterMap, List.filterMap_congr declared,
    List.head?_filterMap]

/-- A name and a descriptor lead from a linked class to the same field. -/
theorem findField_eq (linked : (world.type id).linkage?.isSome) (name descriptor : String) :
    later.findField id name descriptor = world.findField id name descriptor := by
  have order : later.fieldOrder id = world.fieldOrder id := by
    rw [fieldOrder, keeps.height_eq linked, keeps.fieldOrderAfter_eq sound _ linked, fieldOrder]
  have declared : ∀ type ∈ world.fieldOrder id, (later.type type).declaredField? name descriptor =
      (world.type type).declaredField? name descriptor := by
    intro type visited
    rcases reaches_of_mem_fieldOrderAfter (List.mem_reverse.1 visited) with none | reaches
    · cases none
    have reached := sound.reaches_linked (Option.isSome_iff_exists.1 linked) reaches
    exact keeps.declaredField?_eq (Option.isSome_iff_exists.2 reached) name descriptor
  rw [findField, findField, order, ← List.head?_filterMap, List.filterMap_congr declared,
    List.head?_filterMap]

end Linked

/-! ### Assignability -/

/-- A usable class is of the same kind later. -/
theorem kind_eq_or (keeps : world.KeepsUsable later) (usable : (world.type id).isUsable) :
    (world.type id).isArray ∧ (later.type id).kind = (world.type id).kind ∨
      (world.type id).linkage?.isSome ∧ ∃ body own, (world.type id).kind = .declared body ∧
        (later.type id).kind = .declared own := by
  by_cases isArray : (world.type id).isArray
  · exact .inl ⟨isArray, Class.kind_of_lasting (keeps id usable) isArray⟩
  · have linked : (world.type id).linkage?.isSome := by
      simpa [Class.isUsable, isArray] using usable
    obtain ⟨linkage, linkedTo⟩ := Option.isSome_iff_exists.1 linked
    obtain ⟨body, declared, _⟩ := Option.bind_eq_some_iff.1 linkedTo
    have kind := Class.declared?_eq_some.1 declared
    obtain ⟨own, kindLater, _⟩ := Class.declared_of_lasting (keeps id usable) kind
    exact .inr ⟨linked, body, own, kind, kindLater⟩

theorem implements_eq (keeps : world.KeepsUsable later) (usable : (world.type source).isUsable)
    (usableToo : (world.type target).isUsable) :
    later.implements source target = world.implements source target := by
  rw [implements, implements, keeps.isArray_eq usable, keeps.isArraySupertype_eq usableToo,
    keeps.interface?_eq usable, keeps.name_eq usableToo]

section Assignable

variable (keeps : world.KeepsUsable later) (sound : world.Sound)
include keeps sound

theorem isSubclass_eq (linked : (world.type source).linkage?.isSome) :
    later.isSubclass source target = world.isSubclass source target := by
  rw [isSubclass, isSubclass, keeps.superclasses_eq sound linked]

/-- The same classes are assignable to each other, if components of arrays are usable. -/
theorem isAssignableWithin_eq (vetted : world.Vetted) (limit : Nat)
    (usable : (world.type source).isUsable) (usableToo : (world.type target).isUsable) :
    later.isAssignableWithin limit source target =
      world.isAssignableWithin limit source target := by
  induction limit using Nat.strongRecOn generalizing source target with
  | ind limit inductionHypothesis =>
      have interface : (later.type target).isInterface = (world.type target).isInterface := by
        rw [Class.isInterface, keeps.flags_eq usableToo, Class.isInterface]
      rw [isAssignableWithin.eq_def, isAssignableWithin.eq_def]
      dsimp only
      rw [interface, keeps.isArraySupertype_eq usableToo]
      rcases keeps.kind_eq_or usable with ⟨isArray, same⟩ | ⟨linked, _, _, kind, kindLater⟩
      · rw [same]
        cases kind : (world.type source).kind with
        | declared => simp [Class.isArray, Class.declared?, kind] at isArray
        | primitiveArray element supertypes =>
            rcases keeps.kind_eq_or usableToo with ⟨_, sameToo⟩ | ⟨_, _, _, kindToo, kindLaterToo⟩
            · rw [sameToo]
              cases (world.type target).kind <;> rfl
            · rw [kindToo, kindLaterToo]
        | referenceArray component dimension supertypes =>
            rcases keeps.kind_eq_or usableToo with ⟨_, sameToo⟩ | ⟨_, _, _, kindToo, kindLaterToo⟩
            · rw [sameToo]
              cases kindToo : (world.type target).kind with
              | declared | primitiveArray => rfl
              | referenceArray other =>
                  cases limit with
                  | zero => rfl
                  | succ limit =>
                      have below := (vetted.classes source).component component
                        (by rw [Class.component?, kind])
                      have belowToo := (vetted.classes target).component other
                        (by rw [Class.component?, kindToo])
                      simp only [inductionHypothesis limit (Nat.lt_succ_self _) below belowToo]
            · rw [kindToo, kindLaterToo]
      · rw [kind, kindLater, keeps.implements_eq usable usableToo, keeps.isSubclass_eq sound linked]

/-- What was assignable stays so. -/
theorem isAssignable_eq (vetted : world.Vetted) (usable : (world.type source).isUsable)
    (usableToo : (world.type target).isUsable) :
    later.isAssignable source target = world.isAssignable source target := by
  rw [isAssignable, keeps.dimension_eq usable,
    keeps.isAssignableWithin_eq sound vetted _ usable usableToo, isAssignable]

end Assignable

end KeepsUsable
end JavaMachine.World
