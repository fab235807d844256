import JavaMachine.Proofs.Links

/-!
# Searches along links

Methods and fields are looked for by walks of limited length that enter no type twice. They find
what searches find that go on along all links without a limit and without keeping a record: links
do not lead back, so what has been entered before has been searched to the end.
-/

namespace JavaMachine

@[simp] theorem Class.lasting_declaredMethod? (type : Class) (name descriptor : String) :
    type.lasting.declaredMethod? name descriptor = type.declaredMethod? name descriptor := by
  simp [declaredMethod?, methods]

@[simp] theorem Class.lasting_declaredField? (type : Class) (name descriptor : String) :
    type.lasting.declaredField? name descriptor = type.declaredField? name descriptor := by
  simp [declaredField?, instanceField?, staticField?, fields]

end JavaMachine

namespace JavaMachine.World

variable {world later : World} {id next : ClassId} {β : Type} {declares search : ClassId → Option β}
variable {result resultToo : Option β} {seen middle last : List ClassId}

/-! ### Steps without a limit -/

/-- A step of the search for the nearest declaration among the superclasses. -/
def nearestStep (world : World) (declares rest : ClassId → Option β) (id : ClassId) : Option β :=
  (declares id).or ((world.type id).superclass?.bind rest)

/-- A step of the search among the declared interfaces, then those of the superclass. -/
def interfaceStep (world : World) (declares rest : ClassId → Option β) (id : ClassId) : Option β :=
  ((world.type id).interfaces.findSome? fun interface =>
    (declares interface).or (rest interface)).or ((world.type id).superclass?.bind rest)

/-- A step of the search in the class, in the declared interfaces, and in the superclass. -/
def memberStep (world : World) (declares rest : ClassId → Option β) (id : ClassId) : Option β :=
  (declares id).or (((world.type id).interfaces.findSome? rest).or
    ((world.type id).superclass?.bind rest))

theorem findSome?_congr {ids : List ClassId} {left right : ClassId → Option β}
    (same : ∀ id ∈ ids, left id = right id) : ids.findSome? left = ids.findSome? right := by
  rw [← List.head?_filterMap, List.filterMap_congr same, List.head?_filterMap]

section Steps

variable (world : World) (declares : ClassId → Option β)

theorem superclass_bind_congr {left right : ClassId → Option β}
    (same : ∀ next, world.Links id next → left next = right next) :
    (world.type id).superclass?.bind left = (world.type id).superclass?.bind right := by
  cases above : (world.type id).superclass? with
  | none => rfl
  | some superclass => exact same superclass (.inl (Class.mem_supertypes_of_superclass above))

theorem asksAlong_nearestStep : AsksAlong world.Links (world.nearestStep declares) := by
  intro id left right same
  rw [nearestStep, nearestStep, world.superclass_bind_congr same]

theorem asksAlong_interfaceStep : AsksAlong world.Links (world.interfaceStep declares) := by
  intro id left right same
  rw [interfaceStep, interfaceStep, world.superclass_bind_congr same]
  congr 1
  refine findSome?_congr fun interface among => ?_
  rw [same interface (.inl (Class.mem_supertypes_of_interface among))]

theorem asksAlong_memberStep : AsksAlong world.Links (world.memberStep declares) := by
  intro id left right same
  rw [memberStep, memberStep, world.superclass_bind_congr same]
  congr 2
  exact findSome?_congr fun interface among =>
    same interface (.inl (Class.mem_supertypes_of_interface among))

end Steps

/-! ### Walks with a record -/

/-- What is found first among the types seen, the last of which come first in the record. -/
def foundIn (declares : ClassId → Option β) (seen : List ClassId) : Option β :=
  seen.reverse.findSome? declares

theorem foundIn_cons (declares : ClassId → Option β) (id : ClassId) (seen : List ClassId) :
    foundIn declares (id :: seen) = (foundIn declares seen).or (declares id) := by
  simp [foundIn, List.findSome?_append]

/-- The types seen have been searched in vain if nothing was found, up to those that are pending. -/
def Explored (declares search : ClassId → Option β) (pending : ClassId → Prop)
    (seen : List ClassId) : Prop :=
  ∀ type ∈ seen, pending type ∨ (foundIn declares seen = none → search type = none)

theorem explored_nil (declares search : ClassId → Option β) (pending : ClassId → Prop) :
    Explored declares search pending [] :=
  fun _ among => absurd among List.not_mem_nil

/-- A walk has gone on from the types seen: it finds `result` unless something was found before, and
has searched what it has entered. -/
structure Explores (declares search : ClassId → Option β) (result : Option β)
    (seen later : List ClassId) : Prop where
  found : foundIn declares later = (foundIn declares seen).or result
  explored : ∀ type ∈ later, type ∈ seen ∨ (foundIn declares later = none → search type = none)

namespace Explores

theorem refl (declares search : ClassId → Option β) (seen : List ClassId) :
    Explores declares search none seen seen :=
  ⟨Option.or_none.symm, fun _ among => .inl among⟩

theorem trans (first : Explores declares search result seen middle)
    (second : Explores declares search resultToo middle last) :
    Explores declares search (result.or resultToo) seen last where
  found := by rw [second.found, first.found, Option.or_assoc]
  explored type among := by
    rcases second.explored type among with before | searched
    · refine (first.explored type before).imp_right fun searched none => searched ?_
      exact (Option.or_eq_none_iff.1 (second.found.symm.trans none)).1
    · exact .inr searched

/-- A type is entered, and then a walk goes on from there that searches it. -/
theorem enter (explores : Explores declares search result (id :: seen) last)
    (searched : foundIn declares last = none → search id = none) :
    Explores declares search ((declares id).or result) seen last where
  found := by rw [explores.found, foundIn_cons, Option.or_assoc]
  explored type among := by
    rcases explores.explored type among with before | searched
    · rcases List.mem_cons.1 before with rfl | before
      · exact .inr searched
      · exact .inl before
    · exact .inr searched

/-- A type is entered, and then a walk finds all that a search from there finds besides. -/
theorem enterSearched (explores : Explores declares search result (id :: seen) last)
    (answer : search id = (declares id).or result) :
    Explores declares search (search id) seen last := by
  have entered := explores.enter fun none => by
    rw [explores.found, foundIn_cons, Option.or_assoc] at none
    exact answer.trans (Option.or_eq_none_iff.1 none).2
  rwa [← answer] at entered

end Explores

namespace Explored

variable {pending pendingToo : ClassId → Prop}

theorem imp (explored : Explored declares search pending seen)
    (weaker : ∀ type, pending type → pendingToo type) :
    Explored declares search pendingToo seen :=
  fun type among => (explored type among).imp_left (weaker type)

theorem mono (explored : Explored declares search pending seen)
    (explores : Explores declares search result seen last) :
    Explored declares search pending last := by
  intro type among
  rcases explores.explored type among with before | searched
  · refine (explored type before).imp_right fun searched none => searched ?_
    exact (Option.or_eq_none_iff.1 (explores.found.symm.trans none)).1
  · exact .inr searched

theorem cons (explored : Explored declares search pending seen) (here : pending id) :
    Explored declares search pending (id :: seen) := by
  intro type among
  rcases List.mem_cons.1 among with rfl | before
  · exact .inl here
  · refine (explored type before).imp_right fun searched none => searched ?_
    rw [foundIn_cons] at none
    exact (Option.or_eq_none_iff.1 none).1

/-- What has been searched to the end adds nothing. -/
theorem stays (explored : Explored declares search pending seen) (among : id ∈ seen)
    (done : ¬ pending id) (only : foundIn declares seen = none → search id = none →
      result = none) : Explores declares search result seen seen where
  found := by
    cases found : foundIn declares seen with
    | some _ => rfl
    | none =>
        rw [only found (((explored id among).resolve_left done) found)]
        rfl
  explored _ among := .inl among

/-- Walks from some types one after the other. -/
theorem foldl (explored : Explored declares search pending seen)
    (walk : List ClassId → ClassId → List ClassId) (results : ClassId → Option β)
    (ids : List ClassId) (walks : ∀ id ∈ ids, ∀ seen, Explored declares search pending seen →
      Explores declares search (results id) seen (walk seen id)) :
    Explores declares search (ids.findSome? results) seen (ids.foldl walk seen) := by
  induction ids generalizing seen with
  | nil => exact .refl declares search seen
  | cons id rest inductionHypothesis =>
      have first := walks id List.mem_cons_self seen explored
      have others := inductionHypothesis (explored.mono first)
        fun other among => walks other (List.mem_cons_of_mem _ among)
      have both := first.trans others
      have split : (id :: rest).findSome? results = (results id).or (rest.findSome? results) := by
        rw [List.findSome?_cons]
        cases results id <;> rfl
      rw [split]
      exact both

end Explored

/-! ### The walks of the hierarchy -/

section Walks

variable (clean : world.Clean)
include clean

theorem Clean.supertypes_eq_nil (declared : ¬ (world.type id).isArray)
    (bottom : world.linkedHeight id ≤ 0) : (world.type id).supertypes = [] := by
  refine List.eq_nil_iff_forall_not_mem.2 fun supertype above => ?_
  have lower := clean.linkedHeight_lt declared above
  omega

theorem Clean.supertype_declared (above : next ∈ (world.type id).supertypes) :
    ¬ (world.type next).isArray := by
  obtain ⟨linkage, linked⟩ := Option.isSome_iff_exists.1 (clean.supertype_isSome above)
  exact Class.not_isArray_of_linkage? linked

/-- The walk along superclasses finds the nearest declaration. -/
theorem Clean.findSome?_superclassesWithin
    (solves : ∀ id, search id = world.nearestStep declares search id) (limit : Nat)
    (declared : ¬ (world.type id).isArray) (enough : world.linkedHeight id ≤ limit) :
    (world.superclassesWithin limit id).findSome? declares = search id := by
  induction limit generalizing id with
  | zero =>
      have none := clean.supertypes_eq_nil declared enough
      have root : (world.type id).superclass? = Option.none := by
        simpa using (List.append_eq_nil_iff.1 none).1
      rw [solves, nearestStep, root]
      simp [superclassesWithin]
  | succ limit inductionHypothesis =>
      rw [solves, nearestStep, superclassesWithin, List.findSome?_cons]
      cases declares id with
      | some _ => rfl
      | none =>
          cases above : (world.type id).superclass? with
          | none => rfl
          | some superclass =>
              have step := Class.mem_supertypes_of_superclass above
              have lower := clean.linkedHeight_lt declared step
              exact inductionHypothesis (clean.supertype_declared step) (by omega)

/-- The walk along interfaces finds what the search among them without a limit finds. -/
theorem Clean.interfacesAfter_explores
    (solves : ∀ id, search id = world.interfaceStep declares search id) (limit : Nat)
    (declared : ¬ (world.type id).isArray) (enough : world.linkedHeight id ≤ limit)
    (explored : Explored declares search
      (fun type => world.linkedHeight id ≤ world.linkedHeight type) seen) :
    Explores declares search (search id) seen (world.interfacesAfter limit id seen) := by
  induction limit generalizing id seen with
  | zero =>
      have none := List.append_eq_nil_iff.1 (clean.supertypes_eq_nil declared enough)
      have root : (world.type id).superclass? = Option.none := by simpa using none.1
      rw [solves, interfaceStep, root, none.2, interfacesAfter]
      exact .refl declares search seen
  | succ limit inductionHypothesis =>
      have goesOn {supertype : ClassId} {seen : List ClassId}
          (above : supertype ∈ (world.type id).supertypes)
          (explored : Explored declares search
            (fun type => world.linkedHeight supertype ≤ world.linkedHeight type) seen) :
          Explores declares search (search supertype) seen
            (world.interfacesAfter limit supertype seen) := by
        have lower := clean.linkedHeight_lt declared above
        exact inductionHypothesis (clean.supertype_declared above) (by omega) explored
      have among := explored.foldl
        (fun seen interface => if seen.contains interface then seen
          else world.interfacesAfter limit interface (interface :: seen))
        (fun interface => (declares interface).or (search interface))
        (world.type id).interfaces fun interface among seen explored => by
          have above := Class.mem_supertypes_of_interface among
          have lower := clean.linkedHeight_lt declared above
          split
          next before =>
            have before := List.contains_iff_mem.1 before
            refine explored.stays before (by omega) fun none searched => ?_
            have undeclared := List.findSome?_eq_none_iff.1 none interface
              (List.mem_reverse.2 before)
            rw [undeclared, searched]
            rfl
          next =>
            have explores := goesOn above
              ((explored.imp fun type higher => by omega).cons (Nat.le_refl _))
            refine explores.enter fun none => ?_
            exact (Option.or_eq_none_iff.1 (explores.found.symm.trans none)).2
      rw [solves, interfaceStep, interfacesAfter]
      cases superclass : (world.type id).superclass? with
      | none =>
          rw [Option.bind_none, Option.or_none]
          exact among
      | some above =>
          have step := Class.mem_supertypes_of_superclass superclass
          have lower := clean.linkedHeight_lt declared step
          exact among.trans (goesOn step ((explored.mono among).imp fun type higher => by omega))

/-- The walk in search of fields finds what the search without a limit finds. -/
theorem Clean.fieldOrderAfter_explores
    (solves : ∀ id, search id = world.memberStep declares search id) (limit : Nat)
    (declared : ¬ (world.type id).isArray) (enough : world.linkedHeight id ≤ limit)
    (explored : Explored declares search
      (fun type => world.linkedHeight id < world.linkedHeight type) seen) :
    Explores declares search (search id) seen (world.fieldOrderAfter limit id seen) := by
  induction limit generalizing id seen with
  | zero =>
      have none := List.append_eq_nil_iff.1 (clean.supertypes_eq_nil declared enough)
      have root : (world.type id).superclass? = Option.none := by simpa using none.1
      have answer : search id = (declares id).or Option.none := by
        rw [solves, memberStep, root, none.2]
        rfl
      rw [fieldOrderAfter]
      split
      next before =>
        exact explored.stays (List.contains_iff_mem.1 before) (Nat.lt_irrefl _) fun _ none => none
      next =>
        exact (Explores.refl declares search (id :: seen)).enterSearched answer
  | succ limit inductionHypothesis =>
      rw [fieldOrderAfter]
      split
      next before =>
        exact explored.stays (List.contains_iff_mem.1 before) (Nat.lt_irrefl _) fun _ none => none
      next =>
        have goesOn {supertype : ClassId} {seen : List ClassId}
            (above : supertype ∈ (world.type id).supertypes)
            (explored : Explored declares search
              (fun type => world.linkedHeight id ≤ world.linkedHeight type) seen) :
            Explores declares search (search supertype) seen
              (world.fieldOrderAfter limit supertype seen) := by
          have lower := clean.linkedHeight_lt declared above
          exact inductionHypothesis (clean.supertype_declared above) (by omega)
            (explored.imp fun type higher => by omega)
        have entered : Explored declares search
            (fun type => world.linkedHeight id ≤ world.linkedHeight type) (id :: seen) :=
          (explored.imp fun type higher => Nat.le_of_lt higher).cons (Nat.le_refl _)
        have among := entered.foldl
          (fun seen interface => world.fieldOrderAfter limit interface seen) search
          (world.type id).interfaces fun interface among seen explored =>
            goesOn (Class.mem_supertypes_of_interface among) explored
        have answer := solves id
        dsimp only
        cases superclass : (world.type id).superclass? with
        | none =>
            rw [memberStep, superclass, Option.bind_none, Option.or_none] at answer
            exact among.enterSearched answer
        | some above =>
            rw [memberStep, superclass] at answer
            have step := Class.mem_supertypes_of_superclass superclass
            exact (among.trans (goesOn step (entered.mono among))).enterSearched answer

theorem Clean.present_of_links (links : world.Links id next) :
    next.index < world.classes.size :=
  present_of_isUsable (clean.isUsable_of_links links)

/-! ### What is found -/

omit clean in
theorem height_eq_linkedHeight (declared : ¬ (world.type id).isArray) :
    world.height id = world.linkedHeight id := by
  cases kind : (world.type id).kind with
  | declared body => simp only [height, kind]
  | primitiveArray | referenceArray => simp [Class.isArray, Class.declared?, kind] at declared

/-- Links from declared classes lead to declared classes. -/
theorem Clean.declared_of_links (declared : ¬ (world.type id).isArray)
    (links : world.Links id next) : ¬ (world.type next).isArray :=
  links.elim clean.supertype_declared fun below =>
    absurd (Class.isArray_of_component? below) declared

section Recursions

variable (world) (name descriptor : String)

/-- The method that a class or its nearest superclass declares. -/
def findClassMethod (id : ClassId) : Option Method :=
  (world.superclasses id).findSome? fun type => (world.type type).declaredMethod? name descriptor

/-- The method that an interface declares, the first one that a walk meets. -/
def findInterfaceMethod (id : ClassId) : Option Method :=
  (world.interfaceOrder id).findSome? fun type => (world.type type).declaredMethod? name descriptor

/-- Searches for a method and a field by a name and a descriptor are answered by the recursions
along all links, each of which has one solution. -/
structure FindsMembers : Prop where
  classMethod : Determines (fun id => ¬ (world.type id).isArray)
    (world.nearestStep fun id => (world.type id).declaredMethod? name descriptor)
    (world.findClassMethod name descriptor)
  interfaceMethod : Determines (fun id => ¬ (world.type id).isArray)
    (world.interfaceStep fun id => (world.type id).declaredMethod? name descriptor)
    (world.findInterfaceMethod name descriptor)
  method : ∀ id, world.findMethod id name descriptor =
    (world.findClassMethod name descriptor id).or (world.findInterfaceMethod name descriptor id)
  field : Determines (fun id => ¬ (world.type id).isArray)
    (world.memberStep fun id => (world.type id).declaredField? name descriptor)
    (world.findField · name descriptor)

end Recursions

theorem Clean.findsMembers (name descriptor : String) : world.FindsMembers name descriptor where
  classMethod := determines_of_solutions clean.wellFounded_links
    (fun _ _ => clean.declared_of_links) (world.asksAlong_nearestStep _)
    fun _ solves _ declared => clean.findSome?_superclassesWithin solves _ declared
      (Nat.le_of_eq (height_eq_linkedHeight declared).symm)
  interfaceMethod := determines_of_solutions clean.wellFounded_links
    (fun _ _ => clean.declared_of_links) (world.asksAlong_interfaceStep _)
    fun _ solves _ declared => (clean.interfacesAfter_explores solves _ declared
      (Nat.le_of_eq (height_eq_linkedHeight declared).symm) (explored_nil _ _ _)).found
  method id := by
    rw [findMethod, methodOrder, List.findSome?_append, findClassMethod, findInterfaceMethod]
  field := determines_of_solutions clean.wellFounded_links
    (fun _ _ => clean.declared_of_links) (world.asksAlong_memberStep _)
    fun _ solves _ declared => (clean.fieldOrderAfter_explores solves _ declared
      (Nat.le_of_eq (height_eq_linkedHeight declared).symm) (explored_nil _ _ _)).found

end Walks

/-! ### What lasts -/

namespace Endures

section Present

variable (endures : world.Endures later) (present : id.index < world.classes.size)
include endures present

theorem superclass?_eq : (later.type id).superclass? = (world.type id).superclass? := by
  simpa using congrArg Class.superclass? (endures.lasting id present)

theorem interfaces_eq : (later.type id).interfaces = (world.type id).interfaces := by
  simpa using congrArg Class.interfaces (endures.lasting id present)

theorem linkage?_eq : (later.type id).linkage? = (world.type id).linkage? := by
  simpa using congrArg Class.linkage? (endures.lasting id present)

theorem isArray_eq : (later.type id).isArray = (world.type id).isArray := by
  simpa using congrArg Class.isArray (endures.lasting id present)

theorem name_eq : (later.type id).name = (world.type id).name := by
  simpa using congrArg Class.name (endures.lasting id present)

theorem isInterface_eq : (later.type id).isInterface = (world.type id).isInterface := by
  have flags := congrArg Class.flags (endures.lasting id present)
  simp only [Class.lasting_flags] at flags
  rw [Class.isInterface, flags, Class.isInterface]

/-- A class is of the same kind later. -/
theorem kind_cases : (∃ body own, (world.type id).kind = .declared body ∧
      (later.type id).kind = .declared own) ∨
    (world.type id).isArray ∧ (later.type id).kind = (world.type id).kind := by
  have lasting := endures.lasting id present
  cases kind : (world.type id).kind with
  | declared body =>
      obtain ⟨own, kindLater, _⟩ := Class.declared_of_lasting lasting kind
      exact .inl ⟨body, own, rfl, kindLater⟩
  | primitiveArray | referenceArray =>
      have isArray : (world.type id).isArray := by simp [Class.isArray, Class.declared?, kind]
      exact .inr ⟨isArray, (Class.kind_of_lasting lasting isArray).trans kind⟩

theorem isArraySupertype_eq :
    isArraySupertype (later.type id) = isArraySupertype (world.type id) := by
  simpa using congrArg isArraySupertype (endures.lasting id present)

theorem links_iff : later.Links id next ↔ world.Links id next := by
  have component := congrArg Class.component? (endures.lasting id present)
  simp only [Class.lasting_component?] at component
  rw [Links, Links, Class.supertypes, endures.superclass?_eq present,
    endures.interfaces_eq present, component, Class.supertypes]

theorem declaredMethod?_eq (name descriptor : String) :
    (later.type id).declaredMethod? name descriptor =
      (world.type id).declaredMethod? name descriptor := by
  simpa using congrArg (Class.declaredMethod? · name descriptor) (endures.lasting id present)

theorem declaredField?_eq (name descriptor : String) :
    (later.type id).declaredField? name descriptor =
      (world.type id).declaredField? name descriptor := by
  simpa using congrArg (Class.declaredField? · name descriptor) (endures.lasting id present)

theorem implements_eq {target : ClassId} (presentToo : target.index < world.classes.size) :
    later.implements id target = world.implements id target := by
  rw [implements, implements, endures.isArray_eq present, endures.isArraySupertype_eq presentToo,
    Class.interface?, endures.linkage?_eq present, ← Class.interface?, endures.name_eq presentToo]

section Clean

variable (clean : world.Clean) (cleanToo : later.Clean)
include clean cleanToo

theorem isSubclass_eq (target : ClassId) :
    later.isSubclass id target = world.isSubclass id target := by
  refine (eq_of_steps clean.wellFounded_links (fun _ _ _ => clean.present_of_links) ?_
    (fun _ _ => (clean.determines_isSubclass target).solves trivial)
    (fun _ _ => (cleanToo.determines_isSubclass target).solves trivial) id present).symm
  intro id present left right same
  rw [world.asksAlong_subclassStep target id left right same, subclassStep, subclassStep,
    endures.superclass?_eq present]

theorem assignableStep_eq {target : ClassId} (presentToo : target.index < world.classes.size)
    (rest : ClassId → ClassId → Bool) :
    later.assignableStep rest id target = world.assignableStep rest id target := by
  rw [assignableStep, assignableStep, endures.isInterface_eq presentToo,
    endures.isArraySupertype_eq presentToo, endures.implements_eq present presentToo,
    endures.isSubclass_eq present clean cleanToo]
  rcases endures.kind_cases present with ⟨_, _, kind, kindLater⟩ | ⟨_, same⟩
  · rw [kind, kindLater]
  · rcases endures.kind_cases presentToo with ⟨_, _, kindToo, kindLater⟩ | ⟨_, sameToo⟩
    · rw [same, kindToo, kindLater]
      cases (world.type id).kind <;> rfl
    · rw [same, sameToo]

/-- What was assignable stays so. -/
theorem isAssignable_eq {target : ClassId} (presentToo : target.index < world.classes.size) :
    later.isAssignable id target = world.isAssignable id target := by
  induction id using clean.wellFounded_links.induction generalizing target with
  | _ id inductionHypothesis =>
      rw [cleanToo.isAssignable_eq_step, clean.isAssignable_eq_step,
        endures.assignableStep_eq present clean cleanToo presentToo]
      exact assignableStep_congr fun component other links linksToo =>
        inductionHypothesis component links (clean.present_of_links links)
          (clean.present_of_links linksToo)

end Clean
end Present

/-! ### Methods and fields that were found -/

section Declared

variable (endures : world.Endures later) (clean : world.Clean)
include endures clean

/-- Recursions whose steps agree at the declared classes that were there find the same. -/
theorem eq_of_declared {step stepToo : (ClassId → Option β) → ClassId → Option β}
    {answer answerToo : ClassId → Option β} (asks : AsksAlong world.Links step)
    (same : ∀ id, id.index < world.classes.size → ∀ rest, stepToo rest id = step rest id)
    (determines : Determines (fun id => ¬ (world.type id).isArray) step answer)
    (determinesToo : Determines (fun id => ¬ (later.type id).isArray) stepToo answerToo)
    (present : id.index < world.classes.size) (declared : ¬ (world.type id).isArray) :
    answerToo id = answer id := by
  have closed (one next : ClassId)
      (here : one.index < world.classes.size ∧ ¬ (world.type one).isArray)
      (links : world.Links one next) :
      next.index < world.classes.size ∧ ¬ (world.type next).isArray :=
    ⟨clean.present_of_links links, clean.declared_of_links here.2 links⟩
  refine (eq_of_steps clean.wellFounded_links closed (fun one here left right agree => ?_)
    (fun one here => determines.solves here.2) (fun one here => determinesToo.solves ?_) id
      ⟨present, declared⟩).symm
  · rw [same one here.1, asks one left right agree]
  · rw [endures.isArray_eq here.1]
    exact here.2

variable (cleanToo : later.Clean) (present : id.index < world.classes.size)
  (declared : ¬ (world.type id).isArray) (name descriptor : String)
include cleanToo present declared

/-- A name and a descriptor lead from a class to the same method later. -/
theorem findMethod_eq :
    later.findMethod id name descriptor = world.findMethod id name descriptor := by
  have finds := clean.findsMembers name descriptor
  have findsToo := cleanToo.findsMembers name descriptor
  have classMethod := endures.eq_of_declared clean (world.asksAlong_nearestStep _)
    (fun one here rest => by
      rw [nearestStep, nearestStep, endures.superclass?_eq here, endures.declaredMethod?_eq here])
    finds.classMethod findsToo.classMethod present declared
  have interfaceMethod := endures.eq_of_declared clean (world.asksAlong_interfaceStep _)
    (fun one here rest => by
      rw [interfaceStep, interfaceStep, endures.superclass?_eq here, endures.interfaces_eq here]
      congr 1
      refine findSome?_congr fun interface among => ?_
      have links : world.Links one interface := .inl (Class.mem_supertypes_of_interface among)
      rw [endures.declaredMethod?_eq (clean.present_of_links links)])
    finds.interfaceMethod findsToo.interfaceMethod present declared
  rw [findsToo.method, finds.method, classMethod, interfaceMethod]

/-- A name and a descriptor lead from a class to the same field later. -/
theorem findField_eq : later.findField id name descriptor = world.findField id name descriptor :=
  endures.eq_of_declared clean (world.asksAlong_memberStep _)
    (fun one here rest => by
      rw [memberStep, memberStep, endures.superclass?_eq here, endures.interfaces_eq here,
        endures.declaredField?_eq here])
    (clean.findsMembers name descriptor).field (cleanToo.findsMembers name descriptor).field
    present declared

end Declared
end Endures
end JavaMachine.World

namespace JavaMachine

/-- In all worlds that are met no path along links goes on for ever, and all classes on such paths
are linked or array classes; so the recursions along links by which subclasses, assignability,
methods and fields are found come to an end, and each has the answer that the machine gives. What is
met later has the same links between the same classes, and the same answers. -/
theorem Session.links_wellFounded (session : Session) :
    (∀ world ∈ session.worlds,
      WellFounded (fun next id => world.Links id next) ∧
      (∀ id other, Relation.TransGen world.Links id other →
        (world.type id).isUsable ∧ (world.type other).isUsable) ∧
      (∀ target, Determines (fun _ => True) (world.subclassStep target)
        (world.isSubclass · target)) ∧
      Determines (fun _ => True) world.assignableStep world.isAssignable ∧
      ∀ name descriptor, world.FindsMembers name descriptor) ∧
    session.worlds.Pairwise fun later earlier =>
      ∀ id, id.index < earlier.classes.size →
        (later.type id).linkage? = (earlier.type id).linkage? ∧
        (∀ next, later.Links id next ↔ earlier.Links id next) ∧
        (∀ target, later.isSubclass id target = earlier.isSubclass id target) ∧
        (∀ target, target.index < earlier.classes.size →
          later.isAssignable id target = earlier.isAssignable id target) ∧
        (¬ (earlier.type id).isArray → ∀ name descriptor,
          later.findMethod id name descriptor = earlier.findMethod id name descriptor ∧
          later.findField id name descriptor = earlier.findField id name descriptor) := by
  have clean (world : World) (among : world ∈ session.worlds) : world.Clean :=
    World.Met.clean ⟨session, among⟩
  constructor
  · intro world among
    have clean := clean world among
    refine ⟨clean.wellFounded_links, fun id other path => ?_, clean.determines_isSubclass,
      clean.determines_isAssignable, clean.findsMembers⟩
    obtain ⟨next, links, _⟩ := Relation.TransGen.head'_iff.1 path
    obtain ⟨before, _, linksLast⟩ := Relation.TransGen.tail'_iff.1 path
    exact ⟨links.isUsable, clean.isUsable_of_links linksLast⟩
  · refine session.pairwise_endures.imp_of_mem fun {later earlier} among amongToo endures => ?_
    have cleanLater := clean later among
    have clean := clean earlier amongToo
    intro id present
    exact ⟨endures.linkage?_eq present, fun _ => endures.links_iff present,
      endures.isSubclass_eq present clean cleanLater,
      fun _ => endures.isAssignable_eq present clean cleanLater,
      fun declared name descriptor =>
        ⟨endures.findMethod_eq clean cleanLater present declared name descriptor,
          endures.findField_eq clean cleanLater present declared name descriptor⟩⟩

/-! ### A hierarchy that is loaded again -/

namespace Renewed

def files : List (String × ClassFile) :=
  [("java/lang/Object", .withoutMembers 0x0021 "java/lang/Object" "" []),
    ("Shape", .withoutMembers 0x0601 "Shape" "java/lang/Object" []),
    ("Polygon", .withoutMembers 0x0021 "Polygon" "java/lang/Object" ["Shape"]),
    ("Square", .withoutMembers 0x0021 "Square" "Polygon" [])]

def former : List Operation :=
  [.load .bootstrap "[LSquare;", .load .bootstrap "[LShape;", .addLoader "other" .bootstrap []]

def latter : List Operation := [.shutDown, .load .bootstrap "[LSquare;"]

/-- Enters `Square` for another loader, shuts the machine down and loads everything again. -/
def session : Session :=
  .inOrder [.holding files] (former ++ .register ⟨1⟩ ⟨0⟩ :: latter)

/-- The world in which `Square` is entered for the other loader. -/
def before : World := (World.initial [.holding files]).after former

/-- The world after everything. -/
def after : World := session.last.world

def square : ClassId := ⟨0⟩
def squares : ClassId := ⟨4⟩
def shapes : ClassId := ⟨5⟩
def squaresAgain : ClassId := ⟨10⟩

theorem plain : ∀ operation ∈ former ++ .register ⟨1⟩ ⟨0⟩ :: latter,
    operation.runsMethods = false := by
  simp [former, latter, Operation.runsMethods]

theorem taken : ⟨before, .register ⟨1⟩ ⟨0⟩⟩ ∈ session.steps :=
  Session.mem_steps_inOrder [.holding files] former latter _ plain

set_option maxRecDepth 20000 in
theorem assignable : squares.index < before.classes.size ∧ shapes.index < before.classes.size ∧
    before.isAssignable squares shapes ∧ after.isAssignable squaresAgain shapes = false ∧
    after.findLoaded ⟨1⟩ "Square" = some square ∧
    after.findLoaded .bootstrap "[LSquare;" = some squaresAgain := by
  decide +kernel

end Renewed

/-- The old array classes are assignable as before, though there are new ones by their names that
are not. -/
theorem Session.links_wellFounded_renewed :
    Renewed.after ∈ Renewed.session.worlds ∧
      WellFounded (fun next id => Renewed.after.Links id next) ∧
      Renewed.after.isAssignable Renewed.squares Renewed.shapes ∧
      Renewed.after.isAssignable Renewed.squaresAgain Renewed.shapes = false := by
  obtain ⟨met, lasts⟩ := Session.links_wellFounded Renewed.session
  obtain ⟨present, presentToo, assignable, different, _⟩ := Renewed.assignable
  have among : Renewed.after ∈ Renewed.session.worlds := Session.last_mem_worlds Renewed.session
  have asked : Renewed.before ∈ Renewed.session.steps.map Step.world :=
    List.mem_map.2 ⟨_, Renewed.taken, rfl⟩
  rw [Session.worlds, List.pairwise_cons] at lasts
  have answers := lasts.1 Renewed.before asked Renewed.squares present
  have same := answers.2.2.2.1 Renewed.shapes presentToo
  rw [← Renewed.after] at same
  exact ⟨among, (met Renewed.after among).1, same.trans assignable, different⟩

end JavaMachine
