import JavaMachine.Proofs.Soundness
import Mathlib.Logic.Relation

/-!
# Walks along the hierarchy

In a sound world supertypes have smaller heights, so the walks that are limited by a height go all
the way. None of them leaves the types above the one where it starts.
-/

namespace JavaMachine

/-- The superclass, if there is one, and the declared interfaces. -/
def Class.supertypes (type : Class) : List ClassId := type.superclass?.toList ++ type.interfaces

theorem Class.mem_supertypes_of_superclass {type : Class} {superclass : ClassId}
    (above : type.superclass? = some superclass) : superclass ∈ type.supertypes := by
  simp [Class.supertypes, above]

theorem Class.mem_supertypes_of_interface {type : Class} {interface : ClassId}
    (membership : interface ∈ type.interfaces) : interface ∈ type.supertypes :=
  List.mem_append_right _ membership

theorem Class.superclass?_of_not_isArray {type : Class} (declared : ¬ type.isArray) :
    type.superclass? = type.linkage?.bind Linkage.superclass := by
  cases kind : type.kind with
  | declared body => simp [Class.superclass?, Class.linkage?, Class.declared?, kind]
  | primitiveArray | referenceArray => simp [Class.isArray, Class.declared?, kind] at declared

theorem Class.superclass?_of_linkage {type : Class} {linkage : Linkage}
    (linked : type.linkage? = some linkage) : type.superclass? = linkage.superclass := by
  rw [superclass?_of_not_isArray (not_isArray_of_linkage? linked), linked, Option.bind_some]

theorem Class.interfaces_of_linkage {type : Class} {linkage : Linkage}
    (linked : type.linkage? = some linkage) : type.interfaces = linkage.interfaces := by
  obtain ⟨body, declared, attached⟩ := Option.bind_eq_some_iff.1 linked
  simp [Class.interfaces, Class.declared?_eq_some.1 declared, attached]

theorem Class.dimension_of_linkage {type : Class} {linkage : Linkage}
    (linked : type.linkage? = some linkage) : type.dimension = 0 := by
  obtain ⟨body, declared, _⟩ := Option.bind_eq_some_iff.1 linked
  rw [Class.dimension, Class.declared?_eq_some.1 declared]

/-- The type itself or one to which steps to superclasses and declared interfaces lead. -/
def World.Reaches (world : World) : ClassId → ClassId → Prop :=
  Relation.ReflTransGen fun id supertype => supertype ∈ (world.type id).supertypes

/-- The class itself or one of its superclasses. -/
def World.Inherits (world : World) : ClassId → ClassId → Prop :=
  Relation.ReflTransGen fun id superclass => (world.type id).superclass? = some superclass

end JavaMachine

namespace JavaMachine.World

variable {world : World} {id supertype : ClassId} {linkage : Linkage}

theorem lt_heightAbove {heights : List Nat} {height : Nat} (membership : height ∈ heights) :
    height < heightAbove heights := by
  induction heights with
  | nil => cases membership
  | cons first rest inductionHypothesis =>
      simp only [heightAbove, List.foldr_cons]
      rcases List.mem_cons.1 membership with same | among
      · subst same
        omega
      · have below := inductionHypothesis among
        simp only [heightAbove] at below
        omega

theorem linkedHeight_of_linkage (linked : (world.type id).linkage? = some linkage) :
    world.linkedHeight id = linkage.height := by
  rw [linkedHeight, linked]
  rfl

/-- Links to supertypes lead to smaller heights. -/
theorem Sound.linkedHeight_lt (sound : world.Sound)
    (linked : (world.type id).linkage? = some linkage)
    (membership : supertype ∈ linkage.supertypes) :
    world.linkedHeight supertype < world.linkedHeight id := by
  obtain ⟨_, _, fits⟩ := sound.fits linked
  rw [linkedHeight_of_linkage linked, fits.height]
  exact lt_heightAbove (List.mem_map_of_mem membership)

/-- The supertypes of a linked class are linked. -/
theorem Sound.supertype_linked (sound : world.Sound)
    (linked : (world.type id).linkage? = some linkage)
    (membership : supertype ∈ linkage.supertypes) :
    ∃ inherited, (world.type supertype).linkage? = some inherited := by
  obtain ⟨_, _, fits⟩ := sound.fits linked
  exact Option.isSome_iff_exists.1 (fits.linked supertype membership)

/-- The superclass of a declared class is no array class. -/
theorem Sound.superclass_not_isArray (sound : world.Sound) (declared : ¬ (world.type id).isArray)
    (superclass : (world.type id).superclass? = some supertype) :
    ¬ (world.type supertype).isArray := by
  rw [Class.superclass?_of_not_isArray declared] at superclass
  obtain ⟨linkage, linked, superclass⟩ := Option.bind_eq_some_iff.1 superclass
  obtain ⟨inherited, linkedTo⟩ :=
    sound.supertype_linked linked (mem_supertypes_of_superclass superclass)
  intro isArray
  rw [Class.linkage?_of_isArray isArray] at linkedTo
  cases linkedTo

theorem supertypes_of_linkage (linked : (world.type id).linkage? = some linkage) :
    (world.type id).supertypes = linkage.supertypes := by
  rw [Class.supertypes, Class.superclass?_of_linkage linked, Class.interfaces_of_linkage linked,
    Linkage.supertypes]

/-- All types above a linked class are linked. -/
theorem Sound.reaches_linked (sound : world.Sound)
    (linked : ∃ linkage, (world.type id).linkage? = some linkage)
    (reaches : world.Reaches id supertype) :
    ∃ linkage, (world.type supertype).linkage? = some linkage := by
  induction reaches with
  | refl => exact linked
  | tail _ step inductionHypothesis =>
      obtain ⟨linkage, linked⟩ := inductionHypothesis
      rw [supertypes_of_linkage linked] at step
      exact sound.supertype_linked linked step

/-- Each declared class in the list is followed by its superclass, if it has one. -/
def Chained (world : World) : List ClassId → Prop
  | [] => True
  | id :: rest => ¬ (world.type id).isArray →
      rest.head? = (world.type id).superclass? ∧ Chained world rest

/-- What follows what depends only on what lasts of the classes. -/
theorem Chained.of_lasting {later : World}
    (lasting : ∀ id, (later.type id).lasting = (world.type id).lasting) {ids : List ClassId}
    (chained : world.Chained ids) : later.Chained ids := by
  induction ids with
  | nil => trivial
  | cons id rest inductionHypothesis =>
      intro declared
      rw [← Class.lasting_isArray, lasting, Class.lasting_isArray] at declared
      obtain ⟨next, chained⟩ := chained declared
      refine ⟨?_, inductionHypothesis chained⟩
      rw [← Class.lasting_superclass?, lasting, Class.lasting_superclass?]
      exact next

theorem head?_superclassesWithin (world : World) (limit : Nat) (id : ClassId) :
    (world.superclassesWithin limit id).head? = some id := by
  cases limit <;> rfl

theorem Sound.chained_superclassesWithin (sound : world.Sound) (limit : Nat) (id : ClassId)
    (enough : ¬ (world.type id).isArray → world.linkedHeight id ≤ limit) :
    world.Chained (world.superclassesWithin limit id) := by
  induction limit generalizing id with
  | zero =>
      intro declared
      refine ⟨?_, trivial⟩
      rw [Class.superclass?_of_not_isArray declared]
      cases linked : (world.type id).linkage? with
      | none => rfl
      | some linkage =>
          cases superclass : linkage.superclass with
          | none => simp [superclass]
          | some superclassId =>
              have below := sound.linkedHeight_lt linked (mem_supertypes_of_superclass superclass)
              have limited := enough declared
              omega
  | succ limit inductionHypothesis =>
      intro declared
      cases above : (world.type id).superclass? with
      | none => simp [Chained]
      | some superclassId =>
          refine ⟨head?_superclassesWithin world limit superclassId, ?_⟩
          apply inductionHypothesis
          intro _
          rw [Class.superclass?_of_not_isArray declared] at above
          obtain ⟨linkage, linked, superclass⟩ := Option.bind_eq_some_iff.1 above
          have below := sound.linkedHeight_lt linked (mem_supertypes_of_superclass superclass)
          have limited := enough declared
          omega

/-- The list of superclasses leaves none out. -/
theorem Sound.chained_superclasses (sound : world.Sound) (id : ClassId) :
    world.Chained (world.superclasses id) := by
  apply sound.chained_superclassesWithin
  intro declared
  cases kind : (world.type id).kind with
  | declared body => simp [height, kind]
  | primitiveArray | referenceArray => simp [Class.isArray, Class.declared?, kind] at declared

/-! ### What walks visit -/

theorem reaches_of_inherits (inherits : world.Inherits id supertype) :
    world.Reaches id supertype :=
  Relation.ReflTransGen.mono (fun _ _ above => Class.mem_supertypes_of_superclass above) _ _
    inherits

/-- A walk along superclasses visits superclasses. -/
theorem inherits_of_mem_superclassesWithin {limit : Nat} {other : ClassId}
    (visited : other ∈ world.superclassesWithin limit id) : world.Inherits id other := by
  induction limit generalizing id with
  | zero =>
      cases List.mem_singleton.1 visited
      exact .refl
  | succ limit inductionHypothesis =>
      rcases List.mem_cons.1 visited with same | above
      · subst same
        exact .refl
      · split at above
        next superclass found => exact .head found (inductionHypothesis above)
        next => cases above

/-- A fold whose steps add only what is allowed adds only that. -/
theorem mem_foldl_of_steps {allowed : ClassId → Prop} {step : List ClassId → ClassId → List ClassId}
    {interfaces seen : List ClassId} {other : ClassId}
    (steps : ∀ seen, ∀ interface ∈ interfaces, ∀ other ∈ step seen interface,
      other ∈ seen ∨ allowed other)
    (visited : other ∈ interfaces.foldl step seen) : other ∈ seen ∨ allowed other := by
  induction interfaces generalizing seen with
  | nil => exact .inl visited
  | cons interface rest inductionHypothesis =>
      have later := inductionHypothesis
        (fun seen other among => steps seen other (List.mem_cons_of_mem _ among)) visited
      rcases later with first | allowed
      · exact steps seen interface List.mem_cons_self other first
      · exact .inr allowed

/-- A walk along interfaces visits types above. -/
theorem reaches_of_mem_interfacesAfter {limit : Nat} {seen : List ClassId} {other : ClassId}
    (visited : other ∈ world.interfacesAfter limit id seen) :
    other ∈ seen ∨ world.Reaches id other := by
  induction limit generalizing id seen other with
  | zero => exact .inl visited
  | succ limit inductionHypothesis =>
      have declared {other : ClassId} (visited : other ∈ (world.type id).interfaces.foldl
          (fun seen interface =>
            if seen.contains interface then seen
            else world.interfacesAfter limit interface (interface :: seen)) seen) :
          other ∈ seen ∨ world.Reaches id other := by
        refine mem_foldl_of_steps (fun seen interface among other visited => ?_) visited
        have step := Class.mem_supertypes_of_interface among
        split at visited
        · exact .inl visited
        · rcases inductionHypothesis visited with before | above
          · rcases List.mem_cons.1 before with same | before
            · subst same
              exact .inr (.single step)
            · exact .inl before
          · exact .inr (.head step above)
      simp only [interfacesAfter] at visited
      split at visited
      next superclass found =>
        rcases inductionHypothesis visited with before | above
        · exact declared before
        · exact .inr (.head (Class.mem_supertypes_of_superclass found) above)
      next => exact declared visited

/-- Methods are looked for in types above only. -/
theorem reaches_of_mem_methodOrder {other : ClassId} (visited : other ∈ world.methodOrder id) :
    world.Reaches id other := by
  rcases List.mem_append.1 visited with superclass | interface
  · exact reaches_of_inherits (inherits_of_mem_superclassesWithin superclass)
  · rcases reaches_of_mem_interfacesAfter (List.mem_reverse.1 interface) with none | above
    · cases none
    · exact above

/-- A walk in search of a field visits types above. -/
theorem reaches_of_mem_fieldOrderAfter {limit : Nat} {seen : List ClassId} {other : ClassId}
    (visited : other ∈ world.fieldOrderAfter limit id seen) :
    other ∈ seen ∨ world.Reaches id other := by
  induction limit generalizing id seen other with
  | zero =>
      simp only [fieldOrderAfter] at visited
      split at visited
      · exact .inl visited
      · rcases List.mem_cons.1 visited with same | before
        · exact .inr (same ▸ .refl)
        · exact .inl before
  | succ limit inductionHypothesis =>
      have declared {other : ClassId} (visited : other ∈ (world.type id).interfaces.foldl
          (fun seen interface => world.fieldOrderAfter limit interface seen) (id :: seen)) :
          other ∈ seen ∨ world.Reaches id other := by
        have steps := mem_foldl_of_steps (fun seen interface among other visited =>
          (inductionHypothesis visited).imp_right (Relation.ReflTransGen.head
            (Class.mem_supertypes_of_interface among))) visited
        rcases steps with before | above
        · rcases List.mem_cons.1 before with same | before
          · exact .inr (same ▸ .refl)
          · exact .inl before
        · exact .inr above
      simp only [fieldOrderAfter] at visited
      split at visited
      · exact .inl visited
      · split at visited
        next superclass found =>
          rcases inductionHypothesis visited with before | above
          · exact declared before
          · exact .inr (.head (Class.mem_supertypes_of_superclass found) above)
        next => exact declared visited

/-! ### Types above a linked class -/

section Above

variable {type interface : ClassId} {name : String}

theorem Sound.linkedHeight_lt_of_reaches (sound : world.Sound)
    (linked : ∃ linkage, (world.type id).linkage? = some linkage)
    (reaches : world.Reaches id type) :
    id = type ∨ world.linkedHeight type < world.linkedHeight id := by
  induction reaches with
  | refl => exact .inl rfl
  | tail above step inductionHypothesis =>
      obtain ⟨own, linkedAbove⟩ := sound.reaches_linked linked above
      rw [supertypes_of_linkage linkedAbove] at step
      have lower := sound.linkedHeight_lt linkedAbove step
      rcases inductionHypothesis with same | below
      · exact .inr (same ▸ lower)
      · exact .inr (Nat.lt_trans lower below)

/-- No two types are above each other. -/
theorem Sound.reaches_antisymm (sound : world.Sound)
    (linked : ∃ linkage, (world.type id).linkage? = some linkage)
    (reaches : world.Reaches id type) (back : world.Reaches type id) : id = type := by
  rcases sound.linkedHeight_lt_of_reaches linked reaches with same | lower
  · exact same
  · rcases sound.linkedHeight_lt_of_reaches (sound.reaches_linked linked reaches) back with
      same | higher
    · exact same.symm
    · omega

/-- The interfaces that a class knows by name are declared by types above it. -/
theorem Sound.declared_of_interface? (sound : world.Sound)
    (known : (world.type id).interface? name = some interface) :
    ∃ type, world.Reaches id type ∧ interface ∈ (world.type type).interfaces := by
  induction height : world.linkedHeight id using Nat.strongRecOn generalizing id with
  | ind height inductionHypothesis =>
      obtain ⟨linkage, linked, known⟩ := Option.bind_eq_some_iff.1 known
      obtain ⟨_, _, fits⟩ := sound.fits linked
      rcases fits.allInterfaces name interface known with declared | inherited
      · rw [← Class.interfaces_of_linkage linked] at declared
        exact ⟨id, .refl, declared⟩
      · obtain ⟨supertype, membership, inherited, linkedAbove, known⟩ := inherited
        have lower := sound.linkedHeight_lt linked membership
        rw [← supertypes_of_linkage linked] at membership
        obtain ⟨type, reaches, declared⟩ := inductionHypothesis _ (height ▸ lower)
          (by rw [Class.interface?, linkedAbove, Option.bind_some]; exact known) rfl
        exact ⟨type, .head membership reaches, declared⟩

/-- The interfaces that a class knows by name are above it. -/
theorem Sound.reaches_of_interface? (sound : world.Sound)
    (known : (world.type id).interface? name = some interface) : world.Reaches id interface := by
  obtain ⟨type, reaches, declared⟩ := sound.declared_of_interface? known
  exact reaches.tail (Class.mem_supertypes_of_interface declared)

/-- A class knows the names that types above know. -/
theorem Sound.isSome_interface?_of_reaches (sound : world.Sound)
    (linked : ∃ linkage, (world.type id).linkage? = some linkage)
    (reaches : world.Reaches id type) (known : ((world.type type).interface? name).isSome) :
    ((world.type id).interface? name).isSome := by
  induction reaches using Relation.ReflTransGen.head_induction_on with
  | refl => exact known
  | @head id supertype step _ inductionHypothesis =>
      have knownAbove := inductionHypothesis (sound.reaches_linked linked (.single step))
      obtain ⟨linkage, linked⟩ := linked
      obtain ⟨_, _, fits⟩ := sound.fits linked
      rw [supertypes_of_linkage linked] at step
      obtain ⟨inherited, linkedAbove⟩ := sound.supertype_linked linked step
      rw [Class.interface?, linkedAbove, Option.bind_some] at knownAbove
      rw [Class.interface?, linked, Option.bind_some]
      exact fits.covers supertype step inherited linkedAbove name knownAbove

/-- The list of superclasses is complete. -/
theorem Sound.mem_superclassesWithin (sound : world.Sound) {limit : Nat}
    (linked : ∃ linkage, (world.type id).linkage? = some linkage)
    (enough : world.linkedHeight id ≤ limit) (inherits : world.Inherits id type) :
    type ∈ world.superclassesWithin limit id := by
  induction limit generalizing id with
  | zero =>
      rcases Relation.ReflTransGen.cases_head inherits with same | ⟨superclass, above, _⟩
      · exact List.mem_singleton.2 same.symm
      · obtain ⟨linkage, linked⟩ := linked
        have step := Class.mem_supertypes_of_superclass above
        rw [supertypes_of_linkage linked] at step
        have lower := sound.linkedHeight_lt linked step
        omega
  | succ limit inductionHypothesis =>
      rcases Relation.ReflTransGen.cases_head inherits with same | ⟨superclass, above, inherits⟩
      · exact same ▸ List.mem_cons_self
      · have step := Class.mem_supertypes_of_superclass above
        have linkedAbove := sound.reaches_linked linked (.single step)
        obtain ⟨linkage, linked⟩ := linked
        rw [supertypes_of_linkage linked] at step
        have lower := sound.linkedHeight_lt linked step
        rw [superclassesWithin, above]
        exact List.mem_cons_of_mem _ (inductionHypothesis linkedAbove (by omega) inherits)

theorem Sound.isSubclass_iff (sound : world.Sound)
    (linked : ∃ linkage, (world.type id).linkage? = some linkage) :
    world.isSubclass id type ↔ world.Inherits id type := by
  rw [isSubclass, List.contains_iff_mem]
  refine ⟨inherits_of_mem_superclassesWithin, fun inherits => ?_⟩
  apply sound.mem_superclassesWithin linked _ inherits
  obtain ⟨linkage, linked⟩ := linked
  obtain ⟨body, declared, _⟩ := Option.bind_eq_some_iff.1 linked
  simp [height, Class.declared?_eq_some.1 declared]

/-- The superclasses lead on to one that has none. -/
theorem Sound.exists_root (sound : world.Sound)
    (linked : ∃ linkage, (world.type id).linkage? = some linkage) :
    ∃ root, world.Inherits id root ∧ (world.type root).superclass? = none := by
  induction height : world.linkedHeight id using Nat.strongRecOn generalizing id with
  | ind height inductionHypothesis =>
      cases above : (world.type id).superclass? with
      | none => exact ⟨id, .refl, above⟩
      | some superclass =>
          have step := Class.mem_supertypes_of_superclass above
          have linkedAbove := sound.reaches_linked linked (.single step)
          obtain ⟨linkage, linked⟩ := linked
          rw [supertypes_of_linkage linked] at step
          obtain ⟨root, inherits, none⟩ := inductionHypothesis _
            (height ▸ sound.linkedHeight_lt linked step) linkedAbove rfl
          exact ⟨root, .head above inherits, none⟩

end Above

end JavaMachine.World
