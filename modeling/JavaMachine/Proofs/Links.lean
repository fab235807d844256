import JavaMachine.Proofs.Session
import Mathlib.Data.Prod.Lex

/-!
# Links between classes

Links lead from a class to its superclass, to its declared interfaces and, from an array class, to
its component. No path along them goes on for ever, so what is asked about a class by asking the
same about the classes to which links lead has one answer: the one that walks of limited length
find.
-/

namespace JavaMachine

/-! ### Recursions along links -/

section Recursions

variable {α β : Type} {links : α → α → Prop} {among : α → Prop}
variable {step other : (α → β) → α → β} {answer : α → β}

/-- A step asks no more than what is answered where links lead. -/
def AsksAlong (links : α → α → Prop) (step : (α → β) → α → β) : Prop :=
  ∀ one left right, (∀ next, links one next → left next = right next) →
    step left one = step right one

/-- Among some things the recursion by the step has one solution, which is the answer. -/
def Determines (among : α → Prop) (step : (α → β) → α → β) (answer : α → β) : Prop :=
  ∀ other : α → β, (∀ one, among one → other one = step other one) ↔
    ∀ one, among one → other one = answer one

theorem Determines.solves (determines : Determines among step answer) {one : α}
    (here : among one) : answer one = step answer one :=
  (determines answer).2 (fun _ _ => rfl) one here

variable (founded : WellFounded fun next one => links one next)
include founded

theorem exists_solution [Inhabited β] (asks : AsksAlong links step) :
    ∃ solution : α → β, ∀ one, solution one = step solution one := by
  classical
  let solution : α → β := founded.fix fun one rest =>
    step (fun next => if leads : links one next then rest next leads else default) one
  refine ⟨solution, fun one => ?_⟩
  rw [show solution one = _ from founded.fix_eq _ one]
  exact asks one _ _ fun next leads => dif_pos leads

variable (closed : ∀ one next, among one → links one next → among next)
include closed

/-- Steps that agree lead to the same solutions. -/
theorem eq_of_steps (same : ∀ one, among one → ∀ left right,
      (∀ next, links one next → left next = right next) → step left one = other right one)
    {left right : α → β} (solves : ∀ one, among one → left one = step left one)
    (solvesToo : ∀ one, among one → right one = other right one) :
    ∀ one, among one → left one = right one := by
  intro one
  induction one using founded.induction with
  | _ one inductionHypothesis =>
      intro here
      rw [solves one here, solvesToo one here]
      exact same one here left right fun next leads =>
        inductionHypothesis next leads (closed one next here leads)

/-- An answer that agrees with whatever solves the recursion everywhere is its one solution. -/
theorem determines_of_solutions [Inhabited β] (asks : AsksAlong links step)
    (answers : ∀ solution : α → β, (∀ one, solution one = step solution one) →
      ∀ one, among one → answer one = solution one) : Determines among step answer := by
  obtain ⟨solution, solves⟩ := exists_solution founded asks
  have answered := answers solution solves
  intro candidate
  constructor
  · intro solvesToo one here
    rw [answered one here]
    exact eq_of_steps founded closed (fun one _ left right => asks one left right) solvesToo
      (fun one _ => solves one) one here
  · intro same one here
    have agrees (one : α) (here : among one) : candidate one = solution one :=
      (same one here).trans (answered one here)
    rw [agrees one here, solves one]
    exact (asks one _ _ fun next leads => agrees next (closed one next here leads)).symm

end Recursions

/-! ### Links -/

theorem Class.isUsable_of_mem_supertypes {type : Class} {supertype : ClassId}
    (above : supertype ∈ type.supertypes) : type.isUsable := by
  by_cases isArray : type.isArray
  · exact isUsable_of_isArray isArray
  · cases linked : type.linkage? with
    | some linkage => exact isUsable_of_linkage? (Option.isSome_of_eq_some linked)
    | none =>
        obtain ⟨body, declared⟩ : ∃ body, type.declared? = some body := by
          simpa [Class.isArray, ← Option.ne_none_iff_exists'] using isArray
        rw [linkage?, declared, Option.bind_some] at linked
        simp [supertypes, superclass?, interfaces, declared?_eq_some.1 declared, linked] at above

namespace World

variable {world later : World} {id next source target supertype : ClassId}

/-- A link leads from a class to its superclass, to a declared interface or, from an array class, to
its component. -/
def Links (world : World) (id next : ClassId) : Prop :=
  next ∈ (world.type id).supertypes ∨ (world.type id).component? = some next

theorem Links.isUsable (links : world.Links id next) : (world.type id).isUsable :=
  links.elim Class.isUsable_of_mem_supertypes fun below =>
    Class.isUsable_of_isArray (Class.isArray_of_component? below)

/-- A step of the search for a class among the superclasses. -/
def subclassStep (world : World) (target : ClassId) (rest : ClassId → Bool) (id : ClassId) : Bool :=
  id = target || (world.type id).superclass?.any rest

/-- A step from arrays to their components; other classes are assignable by their supertypes. -/
def assignableStep (world : World) (rest : ClassId → ClassId → Bool) (source target : ClassId) :
    Bool :=
  source = target ||
    match (world.type source).kind, (world.type target).kind with
    | .declared _, _ =>
        if (world.type target).isInterface then world.implements source target
        else world.isSubclass source target
    | .primitiveArray element _, .primitiveArray other _ => element = other
    | .referenceArray component _ _, .referenceArray other _ _ => rest component other
    | _, .declared _ => isArraySupertype (world.type target)
    | _, _ => false

theorem asksAlong_subclassStep (world : World) (target : ClassId) :
    AsksAlong world.Links (world.subclassStep target) := by
  intro id left right same
  cases above : (world.type id).superclass? with
  | none => simp [subclassStep, above]
  | some superclass =>
      have answer := same superclass (.inl (Class.mem_supertypes_of_superclass above))
      simp [subclassStep, above, answer]

theorem assignableStep_congr {left right : ClassId → ClassId → Bool}
    (same : ∀ component other, world.Links source component → world.Links target other →
      left component other = right component other) :
    world.assignableStep left source target = world.assignableStep right source target := by
  rw [assignableStep, assignableStep]
  cases kind : (world.type source).kind with
  | declared => rfl
  | primitiveArray => cases (world.type target).kind <;> rfl
  | referenceArray component =>
      cases kindToo : (world.type target).kind with
      | declared | primitiveArray => rfl
      | referenceArray other =>
          have answer := same component other (.inr (by rw [Class.component?, kind]))
            (.inr (by rw [Class.component?, kindToo]))
          simp only [answer]

theorem asksAlong_assignableStep (world : World) :
    AsksAlong world.Links world.assignableStep := fun _ _ _ same =>
  funext fun _ => assignableStep_congr fun component _ links _ => congrFun (same component links) _

section Clean

variable (clean : world.Clean)
include clean

theorem Clean.supertype_isSome (above : supertype ∈ (world.type id).supertypes) :
    (world.type supertype).linkage?.isSome := by
  by_cases isArray : (world.type id).isArray
  · exact (clean.vetted.classes id).supertypes isArray supertype above
  · have usable := Class.isUsable_of_mem_supertypes above
    exact clean.sound.supertype_isSome (linkage?_of_isUsable usable isArray) above

/-- Links lead to linked classes and array classes. -/
theorem Clean.isUsable_of_links (links : world.Links id next) : (world.type next).isUsable :=
  links.elim (fun above => Class.isUsable_of_linkage? (clean.supertype_isSome above))
    fun below => (clean.vetted.classes id).component next below

theorem Clean.linkedHeight_lt (declared : ¬ (world.type id).isArray)
    (above : supertype ∈ (world.type id).supertypes) :
    world.linkedHeight supertype < world.linkedHeight id := by
  obtain ⟨linkage, linked⟩ := Option.isSome_iff_exists.1
    (linkage?_of_isUsable (Class.isUsable_of_mem_supertypes above) declared)
  exact clean.sound.linkedHeight_lt linked (supertypes_of_linkage linked ▸ above)

theorem Clean.dimension_pos (isArray : (world.type id).isArray) :
    0 < (world.type id).dimension := by
  cases kind : (world.type id).kind with
  | declared => simp [Class.isArray, Class.declared?, kind] at isArray
  | primitiveArray => simp [Class.dimension, kind]
  | referenceArray component =>
      have dimension := (clean.vetted.classes id).dimension component
        (by rw [Class.component?, kind])
      omega

/-- No path along links goes on for ever: components have less dimensions, supertypes have none, and
between classes without dimensions heights get smaller. -/
theorem Clean.wellFounded_links : WellFounded fun next id => world.Links id next := by
  let rank (id : ClassId) := toLex ((world.type id).dimension, world.linkedHeight id)
  refine Subrelation.wf ?_ (InvImage.wf rank wellFounded_lt)
  intro next id links
  refine Prod.Lex.toLex_lt_toLex.2 ?_
  rcases links with above | below
  · obtain ⟨_, linkedAbove⟩ := Option.isSome_iff_exists.1 (clean.supertype_isSome above)
    have none := Class.dimension_of_linkage linkedAbove
    by_cases isArray : (world.type id).isArray
    · have positive := clean.dimension_pos isArray
      exact .inl (by omega)
    · obtain ⟨_, linked⟩ := Option.isSome_iff_exists.1
        (linkage?_of_isUsable (Class.isUsable_of_mem_supertypes above) isArray)
      have noneToo := Class.dimension_of_linkage linked
      exact .inr ⟨none.trans noneToo.symm, clean.linkedHeight_lt isArray above⟩
  · have dimension := (clean.vetted.classes id).dimension next below
    exact .inl (by omega)

/-! ### Subclasses -/

/-- A walk along superclasses finds what the search without a limit finds, if the heights of all
superclasses are within the limit. -/
theorem Clean.contains_superclassesWithin {search : ClassId → Bool}
    (solves : ∀ id, search id = world.subclassStep target search id) (limit : Nat)
    (enough : ∀ superclass, (world.type id).superclass? = some superclass →
      world.linkedHeight superclass < limit) :
    (world.superclassesWithin limit id).contains target = search id := by
  induction limit generalizing id with
  | zero =>
      have none : (world.type id).superclass? = none :=
        Option.eq_none_iff_forall_ne_some.2 fun superclass above =>
          Nat.not_lt_zero _ (enough superclass above)
      rw [solves, subclassStep, none]
      simp [superclassesWithin, eq_comm]
  | succ limit inductionHypothesis =>
      rw [solves, subclassStep, superclassesWithin]
      cases above : (world.type id).superclass? with
      | none => simp [eq_comm]
      | some superclass =>
          have lower := enough superclass above
          have linked := clean.supertype_isSome (Class.mem_supertypes_of_superclass above)
          have declared : ¬ (world.type superclass).isArray := by
            obtain ⟨linkage, linked⟩ := Option.isSome_iff_exists.1 linked
            exact Class.not_isArray_of_linkage? linked
          have goesOn := inductionHypothesis fun other aboveThat => by
            have lowerStill := clean.linkedHeight_lt declared
              (Class.mem_supertypes_of_superclass aboveThat)
            omega
          simp [← goesOn, eq_comm]

theorem Clean.linkedHeight_lt_height (superclass : (world.type id).superclass? = some supertype) :
    world.linkedHeight supertype < world.height id := by
  cases kind : (world.type id).kind with
  | declared body =>
      have declared : ¬ (world.type id).isArray := by simp [Class.isArray, Class.declared?, kind]
      simp only [height, kind]
      exact clean.linkedHeight_lt declared (Class.mem_supertypes_of_superclass superclass)
  | primitiveArray | referenceArray =>
      simp only [Class.superclass?, kind] at superclass
      cases superclass
      simp [height, kind]

/-- Whether a class is a subclass is what the search along superclasses without a limit tells. -/
theorem Clean.determines_isSubclass (target : ClassId) :
    Determines (fun _ => True) (world.subclassStep target) (world.isSubclass · target) :=
  determines_of_solutions clean.wellFounded_links (fun _ _ _ _ => trivial)
    (world.asksAlong_subclassStep target) fun _ solves _ _ =>
      clean.contains_superclassesWithin solves _ fun _ above => clean.linkedHeight_lt_height above

/-! ### Assignability -/

theorem Clean.isAssignable_eq_step (source target : ClassId) :
    world.isAssignable source target = world.assignableStep world.isAssignable source target := by
  rw [isAssignable, isAssignableWithin.eq_def, assignableStep]
  dsimp only
  cases kind : (world.type source).kind with
  | declared => rfl
  | primitiveArray => cases (world.type target).kind <;> rfl
  | referenceArray component =>
      have dimension := (clean.vetted.classes source).dimension component
        (by rw [Class.component?, kind])
      rw [dimension]
      cases (world.type target).kind <;> rfl

/-- Which classes are assignable is what the descent to components without a limit tells. -/
theorem Clean.determines_isAssignable :
    Determines (fun _ => True) world.assignableStep world.isAssignable := by
  refine determines_of_solutions clean.wellFounded_links (fun _ _ _ _ => trivial)
    world.asksAlong_assignableStep fun solution solves => ?_
  refine eq_of_steps clean.wellFounded_links (fun _ _ _ _ => trivial)
    (fun source _ left right => world.asksAlong_assignableStep source left right) ?_
    fun source _ => solves source
  exact fun source _ => funext (clean.isAssignable_eq_step source)

end Clean
end World
end JavaMachine
