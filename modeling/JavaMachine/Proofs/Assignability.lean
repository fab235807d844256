import JavaMachine.Proofs.Delegation

/-!
# Assignability

Assignability follows the links to supertypes, and between arrays that of their components.
Supertypes have smaller heights and are known to those below by their names; a loader leads by a
name to one class only. So classes that loaders know are ordered by assignability.
-/

namespace JavaMachine

/-- A file of an interface names the root class as superclass, and files of the root class and of
the interfaces that arrays have name no interfaces. -/
def ClassFile.Conventional (file : ClassFile) : Prop :=
  (file.flags.isInterface → file.className? file.superClass = some WellKnown.objectClass) ∧
    (file.name? ∈ [some WellKnown.objectClass, some WellKnown.cloneableClass,
      some WellKnown.serializableClass] → file.interfaces = [])

instance (file : ClassFile) : Decidable file.Conventional := inferInstanceAs (Decidable (_ ∧ _))

namespace World

variable {world : World} {loader : LoaderId} {id type interface : ClassId} {linkage : Linkage}
variable {name : String}

/-! ### Types above -/

/-- What a type above knows by a name, the class itself knows by the name. -/
theorem Regular.interface?_of_reaches (regular : world.Regular) (sound : world.Sound)
    (registered : world.Registered id)
    (linked : ∃ linkage, (world.type id).linkage? = some linkage)
    (reaches : world.Reaches id type)
    (known : (world.type type).interface? name = some interface) :
    (world.type id).interface? name = some interface := by
  obtain ⟨other, knownHere⟩ := Option.isSome_iff_exists.1
    (sound.isSome_interface?_of_reaches linked reaches (Option.isSome_of_eq_some known))
  have sees := regular.sees_of_reaches sound registered.sees reaches
  have declared : ¬ (world.type interface).isArray := by
    obtain ⟨own, linkedAbove⟩ := sound.reaches_linked linked
      (reaches.trans (sound.reaches_of_interface? known))
    exact Class.not_isArray_of_linkage? linkedAbove
  obtain ⟨linkage, linked, entryHere⟩ := Option.bind_eq_some_iff.1 knownHere
  obtain ⟨inherited, linkedAbove, entry⟩ := Option.bind_eq_some_iff.1 known
  obtain ⟨nameHere, seesHere⟩ := regular.sees_allInterfaces sound registered.sees linked entryHere
  obtain ⟨nameAbove, seesAbove⟩ := regular.sees_allInterfaces sound sees linkedAbove entry
  rw [knownHere, regular.sees_unique sound seesAbove declared seesHere
    (nameAbove.trans nameHere.symm)]

/-- A class knows its declared interfaces by their names. -/
theorem Regular.interface?_of_mem_interfaces (regular : world.Regular) (sound : world.Sound)
    (linked : (world.type id).linkage? = some linkage)
    (declared : interface ∈ linkage.interfaces) :
    (world.type id).interface? (world.type interface).name = some interface := by
  obtain ⟨file, declares, _⟩ := sound.fits linked
  have names := regular.links id file linkage declares linked
  have supertype := mem_supertypes_of_interface declared
  obtain ⟨other, known⟩ := Option.isSome_iff_exists.1 (names.interfaces interface declared)
  obtain ⟨same, seesOther⟩ := names.allInterfaces _ other known
  obtain ⟨own, linkedAbove⟩ := sound.supertype_linked linked supertype
  rw [Class.interface?, linked, Option.bind_some, known,
    regular.sees_unique sound (names.supertypes interface supertype)
      (Class.not_isArray_of_linkage? linkedAbove) seesOther same.symm]

/-! ### Pairs of kinds -/

section Kinds

variable {source target component : ClassId} {element : Primitive} {supertypes : ArraySupertypes}

theorem isAssignable_of_linkage? (linked : (world.type source).linkage? = some linkage) :
    world.isAssignable source target ↔ source = target ∨
      if (world.type target).isInterface then
        (world.type source).interface? (world.type target).name = some target
      else world.isSubclass source target := by
  obtain ⟨body, declared, _⟩ := Option.bind_eq_some_iff.1 linked
  unfold isAssignable isAssignableWithin
  rcases eq_or_ne source target with rfl | distinct
  · simp
  · simp [Class.declared?_eq_some.1 declared, implements, Class.isArray, declared, distinct]

theorem isAssignable_of_isArray (isArray : (world.type source).isArray)
    (linked : (world.type target).linkage? = some linkage) :
    world.isAssignable source target ↔ isArraySupertype (world.type target) := by
  obtain ⟨body, declared, _⟩ := Option.bind_eq_some_iff.1 linked
  have distinct : source ≠ target := by
    rintro rfl
    exact Class.not_isArray_of_linkage? linked isArray
  unfold isAssignable isAssignableWithin
  cases kind : (world.type source).kind with
  | declared => simp [Class.isArray, Class.declared?, kind] at isArray
  | primitiveArray | referenceArray => simp [Class.declared?_eq_some.1 declared, distinct]

theorem isAssignable_of_primitiveArray (isArray : (world.type target).isArray)
    (kind : (world.type source).kind = .primitiveArray element supertypes) :
    world.isAssignable source target ↔
      ∃ others, (world.type target).kind = .primitiveArray element others := by
  rcases eq_or_ne source target with rfl | distinct
  · simp [isAssignable_refl, kind]
  · unfold isAssignable isAssignableWithin
    cases kindToo : (world.type target).kind with
    | declared => simp [Class.isArray, Class.declared?, kindToo] at isArray
    | primitiveArray | referenceArray => simp [kind, distinct, eq_comm]

theorem isAssignable_of_referenceArray (isArray : (world.type target).isArray)
    (kind : (world.type source).kind =
      .referenceArray component ((world.type component).dimension + 1) supertypes) :
    world.isAssignable source target ↔ ∃ other dimension others,
      (world.type target).kind = .referenceArray other dimension others ∧
        world.isAssignable component other := by
  rcases eq_or_ne source target with rfl | distinct
  · simp [isAssignable_refl, kind]
  · rw [isAssignable, isAssignableWithin.eq_def, Class.dimension, kind]
    cases kindToo : (world.type target).kind with
    | declared => simp [Class.isArray, Class.declared?, kindToo] at isArray
    | primitiveArray => simp [kind, kindToo, distinct]
    | referenceArray =>
        simp only [kind, kindToo, distinct, decide_false, Bool.false_or]
        simp [isAssignable]

end Kinds

/-! ### Loaded classes -/

/-- The class is known to a loader by some name. -/
def Loaded (world : World) (id : ClassId) : Prop :=
  ∃ loader name, world.findLoaded loader name = some id

/-- The interfaces among loaded classes extend the root class, and neither the root class nor the
interfaces that arrays have declare interfaces. -/
def Conventional (world : World) : Prop :=
  ∀ id file, world.Loaded id → (world.type id).file? = some file → file.Conventional

/-- A loaded class is a linked one or an array class over a type, in the one place for it. -/
inductive Formed (world : World) : ClassId → Prop where
  | declared {id : ClassId} {linkage : Linkage} (loaded : world.Loaded id)
      (linked : (world.type id).linkage? = some linkage) : Formed world id
  | primitiveArray {id : ClassId} {element : Primitive} {supertypes : ArraySupertypes}
      (kind : (world.type id).kind = .primitiveArray element supertypes)
      (entry : world.findLoaded .bootstrap (FieldType.array (.primitive element)).descriptor =
        some id) : Formed world id
  | referenceArray {id component : ClassId} {supertypes : ArraySupertypes}
      (kind : (world.type id).kind =
        .referenceArray component ((world.type component).dimension + 1) supertypes)
      (entry : world.findLoaded (world.type component).loader (world.type component).arrayName =
        some id) (below : Formed world component) : Formed world id

theorem Intact.registered (intact : world.Intact) (loaded : world.Loaded id) :
    world.Registered id := by
  obtain ⟨loader, name, entry⟩ := loaded
  exact intact.regular.registered_of_findLoaded entry

theorem Intact.formed (intact : world.Intact) (loaded : world.Loaded id) : world.Formed id := by
  induction dimension : (world.type id).dimension using Nat.strongRecOn generalizing id with
  | ind dimension inductionHypothesis =>
      obtain ⟨loader, name, entry⟩ := loaded
      have usable := intact.sound.directories loader name id entry
      have registered := intact.regular.registered_of_findLoaded entry
      cases (intact.regular.entries loader name id entry).placed with
      | declared declared =>
          obtain ⟨linkage, linked⟩ :=
            Option.isSome_iff_exists.1 (linkage?_of_isUsable usable declared)
          exact .declared ⟨loader, name, entry⟩ linked
      | primitiveArray kind home named => exact .primitiveArray kind (home ▸ named ▸ registered)
      | @referenceArray component own supertypes _ kind below home named same =>
          subst same
          refine .referenceArray kind (home ▸ named ▸ registered)
            (inductionHypothesis _ ?_ ⟨_, _, below⟩ rfl)
          rw [← dimension, Class.dimension.eq_def (world.type id), kind]
          exact Nat.lt_succ_self _

namespace Formed

theorem isArray_or_linked (formed : world.Formed id) : (world.type id).isArray ∨
    world.Loaded id ∧ ∃ linkage, (world.type id).linkage? = some linkage := by
  cases formed with
  | declared loaded linked => exact .inr ⟨loaded, _, linked⟩
  | primitiveArray kind => exact .inl (Class.isArray_of_primitive kind)
  | referenceArray kind => exact .inl (Class.isArray_of_reference kind)

/-- There is one array class over a primitive type. -/
theorem entry_of_primitive {element : Primitive} {supertypes : ArraySupertypes}
    (formed : world.Formed id) (kind : (world.type id).kind = .primitiveArray element supertypes) :
    world.findLoaded .bootstrap (FieldType.array (.primitive element)).descriptor = some id := by
  cases formed with
  | declared _ linked =>
      exact absurd (Class.isArray_of_primitive kind) (Class.not_isArray_of_linkage? linked)
  | primitiveArray own entry =>
      cases kind.symm.trans own
      exact entry
  | referenceArray own => cases kind.symm.trans own

/-- There is one array class over a class. -/
theorem component {component : ClassId} {dimension : Nat} {supertypes : ArraySupertypes}
    (formed : world.Formed id)
    (kind : (world.type id).kind = .referenceArray component dimension supertypes) :
    world.Formed component ∧ dimension = (world.type component).dimension + 1 ∧
      world.findLoaded (world.type component).loader (world.type component).arrayName =
        some id := by
  cases formed with
  | declared _ linked =>
      exact absurd (Class.isArray_of_reference kind) (Class.not_isArray_of_linkage? linked)
  | primitiveArray own => cases kind.symm.trans own
  | referenceArray own entry below =>
      cases kind.symm.trans own
      exact ⟨below, rfl, entry⟩

end Formed

namespace Intact

variable (intact : world.Intact) (loaded : world.Loaded id)
  (linked : (world.type id).linkage? = some linkage)
include intact loaded linked

theorem loaded_of_reaches (reaches : world.Reaches id type) :
    world.Loaded type ∧ ∃ own, (world.type type).linkage? = some own := by
  have sees := intact.regular.sees_of_reaches intact.sound
    (intact.registered loaded).sees reaches
  exact ⟨⟨_, _, sees.registered⟩, intact.sound.reaches_linked ⟨_, linked⟩ reaches⟩

omit loaded in
/-- Only the root class has no superclass. -/
theorem superclass?_eq_none :
    (world.type id).superclass? = none ↔ (world.type id).name = WellKnown.objectClass := by
  obtain ⟨_, _, fits⟩ := intact.sound.fits linked
  rw [Class.superclass?_of_linkage linked]
  exact fits.root

variable (conventional : world.Conventional)
include conventional

/-- What a loaded class has from its file. -/
theorem exists_file : ∃ file, file.Conventional ∧ file.name? = some (world.type id).name ∧
    file.flags = (world.type id).flags ∧ world.Fits id (world.type id).name file linkage ∧
      world.Names (world.type id).loader file linkage := by
  obtain ⟨file, declares, fits⟩ := intact.sound.fits linked
  have usable := Class.isUsable_of_linkage? (Option.isSome_of_eq_some linked)
  obtain ⟨name, flags⟩ := intact.sound.heads id (present_of_isUsable usable) file declares
  exact ⟨file, conventional id file loaded declares, name, flags, fits,
    intact.regular.links id file linkage declares linked⟩

/-- Interfaces extend the root class. -/
theorem superclass_name_of_isInterface (isInterface : (world.type id).isInterface)
    (above : (world.type id).superclass? = some type) :
    (world.type type).name = WellKnown.objectClass := by
  obtain ⟨file, ⟨expected, _⟩, _, flags, _, names⟩ := intact.exists_file loaded linked conventional
  rw [Class.superclass?_of_linkage linked] at above
  have named := names.superclass type above
  exact Option.some_inj.1 (named.symm.trans (expected (flags ▸ isInterface)))

/-- The root class and the interfaces that arrays have declare no interfaces. -/
theorem interfaces_eq_nil (among : (world.type id).name ∈
    [WellKnown.objectClass, WellKnown.cloneableClass, WellKnown.serializableClass]) :
    (world.type id).interfaces = [] := by
  obtain ⟨file, ⟨_, none⟩, name, _, fits, _⟩ := intact.exists_file loaded linked conventional
  rw [Class.interfaces_of_linkage linked, ← List.length_eq_zero_iff, fits.interfaces,
    none (name ▸ List.mem_map_of_mem (f := some) among)]
  rfl

/-- Nothing is above the root class. -/
theorem eq_of_root (root : (world.type id).name = WellKnown.objectClass)
    (reaches : world.Reaches id type) : type = id := by
  rcases Relation.ReflTransGen.cases_head reaches with same | ⟨supertype, step, _⟩
  · exact same.symm
  · have none := intact.interfaces_eq_nil loaded linked conventional (root ▸ List.mem_cons_self)
    rw [Class.supertypes, (intact.superclass?_eq_none linked).2 root, none] at step
    cases step

/-- The superclasses of an interface are the root class. -/
theorem root_of_isInterface (isInterface : (world.type id).isInterface)
    (inherits : world.Inherits id type) :
    type = id ∨ (world.type type).name = WellKnown.objectClass := by
  rcases Relation.ReflTransGen.cases_head inherits with same | ⟨superclass, above, inherits⟩
  · exact .inl same.symm
  · have root := intact.superclass_name_of_isInterface loaded linked conventional isInterface above
    obtain ⟨loadedAbove, own, linkedAbove⟩ := intact.loaded_of_reaches loaded linked
      (.single (Class.mem_supertypes_of_superclass above))
    rw [intact.eq_of_root loadedAbove linkedAbove conventional root (reaches_of_inherits inherits)]
    exact .inr root

omit conventional in
/-- Every class inherits from the root class that its loader sees. -/
theorem inherits_of_root (root : (world.type type).name = WellKnown.objectClass)
    (reaches : world.Reaches id type) : world.Inherits id type := by
  have sees {above : ClassId} (reaches : world.Reaches id above) :=
    intact.regular.sees_of_reaches intact.sound (intact.registered loaded).sees reaches
  obtain ⟨top, inherits, none⟩ := intact.sound.exists_root ⟨_, linked⟩
  have reachesTop := reaches_of_inherits inherits
  obtain ⟨_, _, linkedTop⟩ := intact.loaded_of_reaches loaded linked reachesTop
  have rootTop := (intact.superclass?_eq_none linkedTop).1 none
  rwa [← intact.regular.sees_unique intact.sound (sees reachesTop)
    (Class.not_isArray_of_linkage? linkedTop) (sees reaches) (rootTop.trans root.symm)]

/-- A class inherits from all classes above; behind interfaces there is only the root class. -/
theorem inherits_of_reaches (isClass : ¬ (world.type type).isInterface)
    (reaches : world.Reaches id type) : world.Inherits id type := by
  induction reaches using Relation.ReflTransGen.head_induction_on generalizing linkage with
  | refl => exact .refl
  | @head id supertype step above inductionHypothesis =>
      obtain ⟨loadedAbove, own, linkedAbove⟩ :=
        intact.loaded_of_reaches loaded linked (.single step)
      have inherits := inductionHypothesis loadedAbove linkedAbove
      rcases List.mem_append.1 step with superclass | declared
      · exact .head (Option.mem_toList.1 superclass) inherits
      · obtain ⟨_, _, fits⟩ := intact.sound.fits linked
        rw [Class.interfaces_of_linkage linked] at declared
        rcases intact.root_of_isInterface loadedAbove linkedAbove conventional
          (fits.isInterface supertype declared) inherits with same | root
        · exact absurd (fits.isInterface supertype declared) (same ▸ isClass)
        · exact intact.inherits_of_root loaded linked root (.head step above)

/-- What is above a supertype of arrays is one itself. -/
theorem isArraySupertype_of_reaches (isSupertype : isArraySupertype (world.type id))
    (reaches : world.Reaches id type) : isArraySupertype (world.type type) := by
  by_cases isInterface : (world.type id).isInterface
  · have named := of_decide_eq_true ((if_pos isInterface).symm.trans isSupertype)
    rcases Relation.ReflTransGen.cases_head reaches with same | ⟨supertype, step, reaches⟩
    · rwa [← same]
    · have none := intact.interfaces_eq_nil loaded linked conventional
        (List.mem_cons_of_mem _ (by simpa using named))
      rw [Class.supertypes, none, List.append_nil] at step
      have above := Option.mem_toList.1 step
      have root :=
        intact.superclass_name_of_isInterface loaded linked conventional isInterface above
      obtain ⟨loadedAbove, own, linkedAbove⟩ := intact.loaded_of_reaches loaded linked
        (.single (Class.mem_supertypes_of_superclass above))
      obtain ⟨_, _, fits⟩ := intact.sound.fits linked
      rw [Class.superclass?_of_linkage linked] at above
      rw [intact.eq_of_root loadedAbove linkedAbove conventional root reaches]
      simp [isArraySupertype, fits.superclass supertype above, root]
  · have root := of_decide_eq_true ((if_neg isInterface).symm.trans isSupertype)
    rwa [intact.eq_of_root loaded linked conventional root reaches]

end Intact

/-! ### The order -/

variable {source target : ClassId}

/-- What a linked class is assignable to is above it. -/
theorem Sound.reaches_of_isAssignable (sound : world.Sound)
    (linked : (world.type source).linkage? = some linkage)
    (assignable : world.isAssignable source target) : world.Reaches source target := by
  rcases (isAssignable_of_linkage? linked).1 assignable with rfl | above
  · exact .refl
  · split at above
    · exact sound.reaches_of_interface? above
    · exact reaches_of_inherits ((sound.isSubclass_iff ⟨_, linked⟩).1 above)

/-- What is assignable to an array class is one itself. -/
theorem Sound.isArray_of_isAssignable (sound : world.Sound) (formed : world.Formed source)
    (isArray : (world.type target).isArray) (assignable : world.isAssignable source target) :
    (world.type source).isArray := by
  rcases formed.isArray_or_linked with isArray | ⟨_, linkage, linked⟩
  · exact isArray
  · obtain ⟨own, linkedAbove⟩ :=
      sound.reaches_linked ⟨_, linked⟩ (sound.reaches_of_isAssignable linked assignable)
    exact absurd isArray (Class.not_isArray_of_linkage? linkedAbove)

section Order

variable (intact : world.Intact) (conventional : world.Conventional)
include intact conventional

/-- A declared class is assignable to the types above it. -/
theorem Intact.isAssignable_iff_reaches {own : Linkage} (loaded : world.Loaded source)
    (linked : (world.type source).linkage? = some own) :
    world.isAssignable source target ↔ world.Reaches source target := by
  have sound := intact.sound
  refine ⟨sound.reaches_of_isAssignable linked, fun reaches => ?_⟩
  rw [isAssignable_of_linkage? linked]
  split
  next isInterface =>
    rcases Relation.ReflTransGen.cases_tail reaches with same | ⟨type, above, step⟩
    · exact .inl same.symm
    · obtain ⟨inherited, linkedAbove⟩ := sound.reaches_linked ⟨_, linked⟩ above
      obtain ⟨_, _, fits⟩ := sound.fits linkedAbove
      rw [supertypes_of_linkage linkedAbove] at step
      rcases List.mem_append.1 step with superclass | declared
      · exact absurd isInterface (fits.superclass target (Option.mem_toList.1 superclass))
      · have known := intact.regular.interface?_of_mem_interfaces sound linkedAbove declared
        exact .inr (intact.regular.interface?_of_reaches sound (intact.registered loaded)
          ⟨_, linked⟩ above known)
  next isClass =>
    rw [sound.isSubclass_iff ⟨_, linked⟩]
    exact .inr (intact.inherits_of_reaches loaded linked conventional isClass reaches)

/-- Assignability from an array class is transitive if it is among array classes. -/
theorem Intact.isAssignable_trans_of_isArray (isArray : (world.type source).isArray)
    (formed : world.Formed id) (formedToo : world.Formed target)
    (first : world.isAssignable source id) (second : world.isAssignable id target)
    (arrays : (world.type id).isArray → (world.type target).isArray →
      world.isAssignable source target) : world.isAssignable source target := by
  rcases formed.isArray_or_linked with isArrayToo | ⟨loaded, linkage, linked⟩
  · rcases formedToo.isArray_or_linked with isArrayTarget | ⟨_, linkage, linked⟩
    · exact arrays isArrayToo isArrayTarget
    · rw [isAssignable_of_isArray isArrayToo linked] at second
      exact (isAssignable_of_isArray isArray linked).2 second
  · have reaches := intact.sound.reaches_of_isAssignable linked second
    obtain ⟨_, own, linkedAbove⟩ := intact.loaded_of_reaches loaded linked reaches
    rw [isAssignable_of_isArray isArray linked] at first
    rw [isAssignable_of_isArray isArray linkedAbove]
    exact intact.isArraySupertype_of_reaches loaded linked conventional first reaches

/-- Assignability of loaded classes is transitive. -/
theorem Intact.isAssignable_trans (formed : world.Formed source) (formedToo : world.Formed id)
    (formedTarget : world.Formed target) (first : world.isAssignable source id)
    (second : world.isAssignable id target) : world.isAssignable source target := by
  induction formed generalizing id target with
  | declared loaded linked =>
      rw [intact.isAssignable_iff_reaches conventional loaded linked] at first ⊢
      obtain ⟨_, own, linkedAbove⟩ := intact.loaded_of_reaches loaded linked first
      exact first.trans (intact.sound.reaches_of_isAssignable linkedAbove second)
  | primitiveArray kind _ =>
      refine intact.isAssignable_trans_of_isArray conventional (Class.isArray_of_primitive kind)
        formedToo formedTarget first second fun isArrayToo isArray => ?_
      obtain ⟨others, kindToo⟩ := (isAssignable_of_primitiveArray isArrayToo kind).1 first
      rw [isAssignable_of_primitiveArray isArray kindToo] at second
      exact (isAssignable_of_primitiveArray isArray kind).2 second
  | referenceArray kind _ below inductionHypothesis =>
      refine intact.isAssignable_trans_of_isArray conventional (Class.isArray_of_reference kind)
        formedToo formedTarget first second fun isArrayToo isArray => ?_
      obtain ⟨other, _, _, kindToo, first⟩ :=
        (isAssignable_of_referenceArray isArrayToo kind).1 first
      obtain ⟨belowToo, same, _⟩ := formedToo.component kindToo
      rw [same] at kindToo
      obtain ⟨last, _, _, kindTarget, second⟩ :=
        (isAssignable_of_referenceArray isArray kindToo).1 second
      obtain ⟨belowTarget, _⟩ := formedTarget.component kindTarget
      exact (isAssignable_of_referenceArray isArray kind).2
        ⟨last, _, _, kindTarget, inductionHypothesis belowToo belowTarget first second⟩

omit conventional in
/-- Assignability of loaded classes is antisymmetric. -/
theorem Intact.isAssignable_antisymm (formed : world.Formed source)
    (formedToo : world.Formed target) (first : world.isAssignable source target)
    (back : world.isAssignable target source) : source = target := by
  induction formed generalizing target with
  | declared loaded linked =>
      have reaches := intact.sound.reaches_of_isAssignable linked first
      obtain ⟨_, own, linkedToo⟩ := intact.loaded_of_reaches loaded linked reaches
      exact intact.sound.reaches_antisymm ⟨_, linked⟩ reaches
        (intact.sound.reaches_of_isAssignable linkedToo back)
  | primitiveArray kind entry =>
      have isArray := intact.sound.isArray_of_isAssignable formedToo
        (Class.isArray_of_primitive kind) back
      obtain ⟨others, kindToo⟩ := (isAssignable_of_primitiveArray isArray kind).1 first
      have entryToo := formedToo.entry_of_primitive kindToo
      exact Option.some_inj.1 (entry.symm.trans entryToo)
  | referenceArray kind entry below inductionHypothesis =>
      have isArray := intact.sound.isArray_of_isAssignable formedToo
        (Class.isArray_of_reference kind) back
      obtain ⟨other, _, _, kindToo, first⟩ := (isAssignable_of_referenceArray isArray kind).1 first
      obtain ⟨belowToo, same, entryToo⟩ := formedToo.component kindToo
      rw [same] at kindToo
      obtain ⟨component, _, _, kindAgain, back⟩ :=
        (isAssignable_of_referenceArray (Class.isArray_of_reference kind) kindToo).1 back
      cases kind.symm.trans kindAgain
      rw [← inductionHypothesis belowToo first back] at entryToo
      exact Option.some_inj.1 (entry.symm.trans entryToo)

end Order

/-- In a world with whose directories nobody has interfered, assignability is a partial order on the
classes that loaders know: declared classes, interfaces and array classes. A declared class is
assignable to the types above it and to nothing else. -/
theorem assignable_partial_order (undisturbed : world.Undisturbed)
    (conventional : world.Conventional) :
    (∀ id, world.Loaded id → world.isAssignable id id) ∧
    (∀ source middle target, world.Loaded source → world.Loaded middle → world.Loaded target →
      world.isAssignable source middle → world.isAssignable middle target →
        world.isAssignable source target) ∧
    (∀ source target, world.Loaded source → world.Loaded target →
      world.isAssignable source target → world.isAssignable target source → source = target) ∧
    ∀ source target, world.Loaded source → ¬ (world.type source).isArray →
      (world.isAssignable source target ↔ world.Reaches source target) := by
  have intact := undisturbed.intact
  refine ⟨fun id _ => world.isAssignable_refl id, ?transitive, ?antisymmetric, ?declared⟩
  case transitive =>
    intro source middle target loaded loadedToo loadedTarget
    exact intact.isAssignable_trans conventional (intact.formed loaded) (intact.formed loadedToo)
      (intact.formed loadedTarget)
  case antisymmetric =>
    intro source target loaded loadedToo
    exact intact.isAssignable_antisymm (intact.formed loaded) (intact.formed loadedToo)
  case declared =>
    intro source target loaded declared
    rcases (intact.formed loaded).isArray_or_linked with isArray | ⟨_, linkage, linked⟩
    · exact absurd isArray declared
    · exact intact.isAssignable_iff_reaches conventional loaded linked

theorem conventional_of_forall (intact : world.Intact)
    (all : ∀ type ∈ world.classes.toList, ∀ file ∈ type.file?.toList, file.Conventional) :
    world.Conventional := by
  rintro id file ⟨loader, name, entry⟩ declares
  have present := present_of_isUsable (intact.sound.directories loader name id entry)
  refine all (world.type id) ?_ file (Option.mem_toList.2 declares)
  rw [type_eq_of_getElem? (Array.getElem?_eq_getElem present)]
  exact Array.mem_toList_iff.2 (Array.getElem_mem present)

end World

namespace Layered

set_option maxRecDepth 20000

theorem conventional : world.Conventional :=
  World.conventional_of_forall undisturbed.intact (by decide +kernel)

theorem entries : world.findLoaded loader "[LSquare;" = some squares ∧
    world.findLoaded .bootstrap "[LPolygon;" = some polygons ∧
    world.findLoaded .bootstrap "[LShape;" = some shapes := by
  decide +kernel

theorem assignable : world.isAssignable squares polygons ∧ world.isAssignable polygons shapes := by
  decide +kernel

end Layered

namespace World

/-- Squares are polygons and polygons are shapes, so arrays of squares are arrays of shapes. -/
theorem assignable_partial_order_layered :
    Layered.world.Undisturbed ∧ Layered.world.Conventional ∧
      Layered.world.isAssignable Layered.squares Layered.shapes := by
  obtain ⟨_, transitive, _⟩ :=
    assignable_partial_order Layered.undisturbed Layered.conventional
  obtain ⟨squares, polygons, shapes⟩ := Layered.entries
  obtain ⟨first, second⟩ := Layered.assignable
  exact ⟨Layered.undisturbed, Layered.conventional,
    transitive _ _ _ ⟨_, _, squares⟩ ⟨_, _, polygons⟩ ⟨_, _, shapes⟩ first second⟩

end World
end JavaMachine
