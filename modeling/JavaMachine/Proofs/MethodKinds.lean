import JavaMachine.Proofs.Finality

/-!
# Kinds of methods

A linked class has each method that its file declares in the tables of its kinds, whatever its
supertypes have under the same key: a static one in that for static methods; a private or a final
one or a constructor in that for calls without dispatch; and one that takes part in dispatch in the
table for dispatch, where a final one is as well. The former two tables hold nothing else, and what
a class inherits for dispatch is neither static nor private.
-/

namespace JavaMachine

theorem Method.isNonvirtual_iff {method : Method} : method.isNonvirtual ↔ ¬ method.isStatic ∧
    (method.isPrivate ∨ method.name = WellKnown.constructor ∨ method.isFinal) := by
  simp [isNonvirtual, or_assoc]

theorem Method.isVirtual_iff {method : Method} : method.isVirtual ↔
    ¬ method.isStatic ∧ ¬ method.isPrivate ∧ method.name ≠ WellKnown.constructor := by
  simp [isVirtual, and_assoc]

namespace World

variable {world : World} {id : ClassId} {linkage : Linkage} {key : String} {method : Method}

/-! ### Tables of linked classes -/

/-- A table that has the declarations of a kind has just those methods. -/
theorem Sound.find?_of_kind (sound : world.Sound)
    (linked : (world.type id).linkage? = some linkage) {kind : Method → Bool}
    {table : Table String Method}
    (sorted : table.find? key = (linkage.methods.declared.find? key).filter kind) :
    table.find? key = some method ↔
      world.Declares id method ∧ method.key = key ∧ kind method := by
  rw [sorted, ← methods_of_linkage linked, Option.filter_eq_some_iff,
    sound.find?_declared linked]
  constructor
  · rintro ⟨⟨sameKey, declares⟩, isKind⟩
    exact ⟨declares, sameKey, isKind⟩
  · rintro ⟨declares, sameKey, isKind⟩
    exact ⟨⟨sameKey, declares⟩, isKind⟩

theorem Sound.find?_static (sound : world.Sound)
    (linked : (world.type id).linkage? = some linkage) :
    (world.type id).methods.static.find? key = some method ↔
      world.Declares id method ∧ method.key = key ∧ method.isStatic := by
  obtain ⟨file, _, fits⟩ := sound.fits linked
  rw [methods_of_linkage linked]
  exact sound.find?_of_kind linked ((MethodTables.sorts_build fits.methods).static key)

theorem Sound.find?_nonvirtual (sound : world.Sound)
    (linked : (world.type id).linkage? = some linkage) :
    (world.type id).methods.nonvirtual.find? key = some method ↔
      world.Declares id method ∧ method.key = key ∧ method.isNonvirtual := by
  obtain ⟨file, _, fits⟩ := sound.fits linked
  rw [methods_of_linkage linked]
  exact sound.find?_of_kind linked ((MethodTables.sorts_build fits.methods).nonvirtual key)

/-- The own declarations among the entries for dispatch. An entry under another key or of another
kind would be the declaration of a type above, which has its own key and takes part in dispatch. -/
theorem Sound.find?_virtual_of_declares (sound : world.Sound)
    (linked : (world.type id).linkage? = some linkage) (declares : world.Declares id method) :
    (world.type id).methods.virtual.find? key = some method ↔
      method.key = key ∧ method.isVirtual := by
  constructor
  · intro entry
    obtain ⟨type, _, first, _⟩ := sound.firstDeclares ⟨linkage, linked⟩ entry
    exact ⟨first.key, first.isVirtual⟩
  · rintro ⟨sameKey, isVirtual⟩
    have own := (sound.find?_declared linked key method).2 ⟨sameKey, declares⟩
    rw [sound.find?_virtual linked, own, Option.filter_some, if_pos isVirtual, Option.some_or]

/-! ### Declarations and what is found -/

/-- Each method in the file of a linked class is one of its declarations. -/
theorem Sound.exists_declares (sound : world.Sound)
    (linked : (world.type id).linkage? = some linkage) {file : ClassFile}
    (isFile : (world.type id).file? = some file) {member : Member MethodFlags}
    (listed : member ∈ file.methods) : ∃ method, world.Declares id method ∧
      method.flags = member.flags ∧ file.requireText member.name = .ok method.name ∧
        file.requireText member.descriptor = .ok method.descriptor := by
  obtain ⟨own, isFileToo, fits⟩ := sound.fits linked
  cases isFile.symm.trans isFileToo
  obtain ⟨method, read⟩ := MethodTables.exists_ofMember_of_build fits.methods member listed
  obtain ⟨named, described, _⟩ := Method.ofMember_ok read
  exact ⟨method, ⟨file, isFile, member, listed, read⟩, Method.ofMember_flags read, named, described⟩

/-- Each method in the file of a linked class is a declaration. Under its key the table for static
methods has the static ones, that for calls without dispatch the private and final ones and the
constructors that are not static, and these two have nothing else; of the declarations the table for
dispatch has those that are neither static nor private nor constructors. So a declaration is found
by the ways that suit its kind and no other, and nothing static or private is found that the class
does not declare itself. -/
theorem methods_sorted (met : world.Met) (linked : (world.type id).linkage?.isSome) :
    (∀ file, (world.type id).file? = some file → ∀ member ∈ file.methods, ∃ method,
      world.Declares id method ∧ method.flags = member.flags ∧
        file.requireText member.name = .ok method.name ∧
        file.requireText member.descriptor = .ok method.descriptor) ∧
    (∀ key method, (world.type id).methods.static.find? key = some method ↔
      world.Declares id method ∧ method.key = key ∧ method.isStatic) ∧
    (∀ key method, (world.type id).methods.nonvirtual.find? key = some method ↔
      world.Declares id method ∧ method.key = key ∧ ¬ method.isStatic ∧
        (method.isPrivate ∨ method.name = WellKnown.constructor ∨ method.isFinal)) ∧
    (∀ key method, world.Declares id method →
      ((world.type id).methods.virtual.find? key = some method ↔ method.key = key ∧
        ¬ method.isStatic ∧ ¬ method.isPrivate ∧ method.name ≠ WellKnown.constructor)) ∧
    (∀ method, world.Declares id method →
      ((world.type id).staticMethod? method.name method.descriptor = some method ↔
        method.isStatic) ∧
      ((world.type id).nonvirtualMethod? method.name method.descriptor = some method ↔
        ¬ method.isStatic ∧
          (method.isPrivate ∨ method.name = WellKnown.constructor ∨ method.isFinal)) ∧
      ((world.type id).virtualMethod? method.name method.descriptor = some method ↔
        ¬ method.isStatic ∧ ¬ method.isPrivate ∧ method.name ≠ WellKnown.constructor)) ∧
    ∀ name descriptor method,
      ((world.type id).staticMethod? name descriptor = some method →
        world.Declares id method ∧ method.key = methodKey name descriptor) ∧
      ((world.type id).nonvirtualMethod? name descriptor = some method →
        world.Declares id method ∧ method.key = methodKey name descriptor) ∧
      ((world.type id).virtualMethod? name descriptor = some method →
        ¬ method.isStatic ∧ ¬ method.isPrivate ∧ method.name ≠ WellKnown.constructor ∧
          method.key = methodKey name descriptor ∧
          ∃ type, world.Reaches id type ∧ world.Declares type method) := by
  have sound := met.clean.sound
  obtain ⟨linkage, linked⟩ := Option.isSome_iff_exists.1 linked
  simp only [← Method.isNonvirtual_iff, ← Method.isVirtual_iff]
  refine ⟨fun file isFile member => sound.exists_declares linked isFile,
    fun key method => sound.find?_static linked, fun key method => sound.find?_nonvirtual linked,
    fun key method => sound.find?_virtual_of_declares linked, fun method declares => ?own,
    fun name descriptor method => ?found⟩
  case own =>
    refine ⟨(sound.find?_static linked).trans ?_, (sound.find?_nonvirtual linked).trans ?_,
      (sound.find?_virtual_of_declares linked declares).trans ?_⟩
    · exact ⟨fun found => found.2.2, fun isStatic => ⟨declares, rfl, isStatic⟩⟩
    · exact ⟨fun found => found.2.2, fun isNonvirtual => ⟨declares, rfl, isNonvirtual⟩⟩
    · exact ⟨And.right, fun isVirtual => ⟨rfl, isVirtual⟩⟩
  case found =>
    refine ⟨fun found => ?_, fun found => ?_, fun found => ?_⟩
    · obtain ⟨declares, sameKey, _⟩ := (sound.find?_static linked).1 found
      exact ⟨declares, sameKey⟩
    · obtain ⟨declares, sameKey, _⟩ := (sound.find?_nonvirtual linked).1 found
      exact ⟨declares, sameKey⟩
    · obtain ⟨type, reaches, first, _⟩ := sound.firstDeclares ⟨linkage, linked⟩ found
      obtain ⟨dynamic, accessible, ordinary⟩ := Method.isVirtual_iff.1 first.isVirtual
      exact ⟨dynamic, accessible, ordinary, first.key, type, reaches, first.declares⟩

set_option maxRecDepth 20000 in
/-- `Masking` finds its private method without dispatch only, and by dispatch the final one that it
inherits. -/
theorem methods_sorted_sealed :
    Sealed.world.Met ∧ (Sealed.world.type Sealed.masking).linkage?.isSome ∧
      ∃ method, Sealed.world.Declares Sealed.masking method ∧ method.isPrivate ∧
        (Sealed.world.type Sealed.masking).nonvirtualMethod? "m" "()V" = some method ∧
        (Sealed.world.type Sealed.masking).staticMethod? "m" "()V" ≠ some method ∧
        (Sealed.world.type Sealed.masking).virtualMethod? "m" "()V" ≠ some method ∧
        ((Sealed.world.type Sealed.masking).virtualMethod? "m" "()V").isSome := by
  have linked : (Sealed.world.type Sealed.masking).linkage?.isSome := by decide +kernel
  have found : (((Sealed.world.type Sealed.masking).nonvirtualMethod? "m" "()V").filter
      Method.isPrivate).isSome := by
    decide +kernel
  obtain ⟨method, found⟩ := Option.isSome_iff_exists.1 found
  obtain ⟨found, isPrivate⟩ := Option.filter_eq_some_iff.1 found
  obtain ⟨_, static, nonvirtual, virtual, _, retrieval⟩ := methods_sorted Sealed.met linked
  obtain ⟨declares, _⟩ := (retrieval "m" "()V" method).2.1 found
  refine ⟨Sealed.met, linked, method, declares, isPrivate, found, fun among => ?_,
    fun among => ?_, by decide +kernel⟩
  · exact ((nonvirtual _ method).1 found).2.2.1 ((static _ method).1 among).2.2
  · exact ((virtual _ method declares).1 among).2.2.1 isPrivate

end World
end JavaMachine
