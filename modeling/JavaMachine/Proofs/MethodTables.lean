import JavaMachine.Class.MethodTables

/-!
# What method tables hold

The table of declarations holds exactly the methods of the file, and those for static and for
special methods hold the declarations of their kind. The table for dispatch holds the own virtual
declaration under a key, or else the inherited entry, or else that of the first interface with one.
-/

namespace JavaMachine

/-- A bind that succeeds goes through both parts. -/
theorem Except.bind_ok {ε α β : Type} {first : Except ε α} {next : α → Except ε β} {result : β}
    (ok : (first >>= next) = .ok result) :
    ∃ middle, first = .ok middle ∧ next middle = .ok result := by
  cases first with
  | error error => cases ok
  | ok middle => exact ⟨middle, rfl, ok⟩

theorem ClassFile.requireText_eq_ok {file : ClassFile} {index : UInt16} {text : String} :
    file.requireText index = .ok text ↔ file.text? index = some text := by
  rw [requireText]
  cases file.text? index <;> simp

theorem Method.ofMember_owner {file : ClassFile} {owner : ClassId} {ownerName : String}
    {member : Member MethodFlags} {method : Method}
    (read : ofMember file owner ownerName member = .ok method) :
    method.owner = owner ∧ method.ownerName = ownerName := by
  obtain ⟨name, _, read⟩ := Except.bind_ok read
  obtain ⟨descriptor, _, read⟩ := Except.bind_ok read
  split at read
  · cases read
  · obtain ⟨code, _, read⟩ := Except.bind_ok read
    cases read
    exact ⟨rfl, rfl⟩

/-- The name and the descriptor stand in the file, and the type is read from the descriptor. -/
theorem Method.ofMember_ok {file : ClassFile} {owner : ClassId} {ownerName : String}
    {member : Member MethodFlags} {method : Method}
    (read : ofMember file owner ownerName member = .ok method) :
    file.requireText member.name = .ok method.name ∧
      file.requireText member.descriptor = .ok method.descriptor ∧
      MethodType.ofDescriptor? method.descriptor = some method.type := by
  obtain ⟨name, named, read⟩ := Except.bind_ok read
  obtain ⟨descriptor, described, read⟩ := Except.bind_ok read
  split at read
  · cases read
  next type known =>
    obtain ⟨code, _, read⟩ := Except.bind_ok read
    cases read
    exact ⟨named, described, known⟩

theorem Method.ofMember_flags {file : ClassFile} {owner : ClassId} {ownerName : String}
    {member : Member MethodFlags} {method : Method}
    (read : ofMember file owner ownerName member = .ok method) : method.flags = member.flags := by
  obtain ⟨name, _, read⟩ := Except.bind_ok read
  obtain ⟨descriptor, _, read⟩ := Except.bind_ok read
  split at read
  · cases read
  · obtain ⟨code, _, read⟩ := Except.bind_ok read
    cases read
    rfl

/-- Whether the method can be called without dispatch on a receiver: a private or a final one, or a
constructor. -/
def Method.isNonvirtual (method : Method) : Bool :=
  !method.isStatic &&
    (method.isPrivate || method.name = WellKnown.constructor || method.isFinal)

namespace MethodTables

variable {file : ClassFile} {owner : ClassId} {className : String} {tables later : MethodTables}
variable {method : Method} {inherited : Table String Method}

/-- Entering a method, under a key that is new, puts it into the tables of its kinds. -/
theorem enter_eq_ok (entered : tables.enter className method = .ok later) :
    tables.declared.find? method.key = none ∧ later =
      { declared := tables.declared.insert method.key method
        virtual :=
          if method.isVirtual then tables.virtual.insert method.key method else tables.virtual
        nonvirtual :=
          if method.isNonvirtual then tables.nonvirtual.insert method.key method
          else tables.nonvirtual
        static :=
          if method.isStatic then tables.static.insert method.key method else tables.static } := by
  unfold enter at entered
  dsimp only at entered
  split at entered
  · cases entered
  next absent =>
    refine ⟨by simpa [Table.contains] using absent, ?_⟩
    split at entered
    next static =>
      cases entered
      simp [Method.isVirtual, Method.isNonvirtual, static]
    next dynamic =>
      split at entered
      next special =>
        cases entered
        rcases special with isPrivate | constructor
        · simp [Method.isVirtual, Method.isNonvirtual, dynamic, isPrivate]
        · simp [Method.isVirtual, Method.isNonvirtual, dynamic, constructor]
      next ordinary =>
        rw [not_or] at ordinary
        split at entered
        · cases entered
        · cases entered
          simp [Method.isVirtual, Method.isNonvirtual, dynamic, ordinary]

/-- What entering a method into tables does to those for declarations and dispatch. -/
theorem enter_ok (entered : tables.enter className method = .ok later) :
    tables.declared.find? method.key = none ∧
      later.declared = tables.declared.insert method.key method ∧
      later.virtual =
        if method.isVirtual then tables.virtual.insert method.key method else tables.virtual := by
  obtain ⟨absent, rfl⟩ := enter_eq_ok entered
  exact ⟨absent, rfl, rfl⟩

/-- A table that has the declarations of a kind, and under other keys what another one has, has
them still when a new declaration has been entered where it belongs. -/
theorem find?_entered_of_kind {kind : Method → Bool} {declared table : Table String Method}
    (base : Table String Method)
    (sorted : ∀ key, table.find? key = ((declared.find? key).filter kind).or (base.find? key))
    (absent : declared.find? method.key = none) (key : String) :
    (if kind method then table.insert method.key method else table).find? key =
      (((declared.insert method.key method).find? key).filter kind).or (base.find? key) := by
  have before := sorted method.key
  rw [absent, Option.filter_none, Option.none_or] at before
  rw [Table.find?_insert]
  by_cases same : method.key = key
  · subst same
    by_cases isKind : kind method
    · simp [isKind, Option.filter_some]
    · simp [isKind, Option.filter_some, before]
  · by_cases isKind : kind method
    · simp [isKind, same, sorted]
    · simp [isKind, same, sorted]

/-- The tables for static and for special methods have the declarations of their kind. -/
structure Sorts (tables : MethodTables) : Prop where
  static : ∀ key, tables.static.find? key = (tables.declared.find? key).filter Method.isStatic
  nonvirtual : ∀ key,
    tables.nonvirtual.find? key = (tables.declared.find? key).filter Method.isNonvirtual

theorem Sorts.enter (sorts : Sorts tables)
    (entered : tables.enter className method = .ok later) : Sorts later := by
  obtain ⟨absent, rfl⟩ := enter_eq_ok entered
  constructor
  · intro key
    simpa using find?_entered_of_kind {} (by simpa using sorts.static) absent key
  · intro key
    simpa using find?_entered_of_kind {} (by simpa using sorts.nonvirtual) absent key

theorem Sorts.enterAll {members : List (Member MethodFlags)} (sorts : Sorts tables)
    (entered : enterAll file owner className members tables = .ok later) : Sorts later := by
  induction members generalizing tables with
  | nil =>
      cases entered
      exact sorts
  | cons member rest inductionHypothesis =>
      obtain ⟨first, _, entered⟩ := Except.bind_ok entered
      obtain ⟨middle, enteredFirst, entered⟩ := Except.bind_ok entered
      exact inductionHypothesis (sorts.enter enteredFirst) entered

/-- The methods entered are the declarations under their keys. -/
theorem find?_declared_enterAll {members : List (Member MethodFlags)}
    (entered : enterAll file owner className members tables = .ok later) (key : String) :
    later.declared.find? key = some method ↔
      tables.declared.find? key = some method ∨
        method.key = key ∧ ∃ member ∈ members,
          Method.ofMember file owner className member = .ok method := by
  induction members generalizing tables with
  | nil =>
      cases entered
      simp
  | cons member rest inductionHypothesis =>
      obtain ⟨first, read, entered⟩ := Except.bind_ok entered
      obtain ⟨middle, enteredFirst, entered⟩ := Except.bind_ok entered
      obtain ⟨absent, declared, _⟩ := enter_ok enteredFirst
      rw [inductionHypothesis entered, declared, Table.find?_insert]
      constructor
      · rintro (here | ⟨sameKey, other, membership, readOther⟩)
        · split at here
          next same =>
            cases here
            exact .inr ⟨same, member, List.mem_cons_self, read⟩
          next => exact .inl here
        · exact .inr ⟨sameKey, other, List.mem_cons_of_mem _ membership, readOther⟩
      · rintro (before | ⟨sameKey, other, membership, readOther⟩)
        · have distinct : first.key ≠ key := by
            intro same
            rw [same, before] at absent
            cases absent
          rw [if_neg distinct]
          exact .inl before
        · rcases List.mem_cons.1 membership with same | among
          · rw [same, read] at readOther
            cases readOther
            rw [if_pos sameKey]
            exact .inl rfl
          · exact .inr ⟨sameKey, other, among, readOther⟩

/-- While methods are entered, an entry for dispatch is the declaration if that is virtual, and else
the one inherited. -/
def Dispatches (inherited : Table String Method) (tables : MethodTables) : Prop :=
  ∀ key, tables.virtual.find? key =
    ((tables.declared.find? key).filter Method.isVirtual).or (inherited.find? key)

theorem Dispatches.enter (dispatches : Dispatches inherited tables)
    (entered : tables.enter className method = .ok later) : Dispatches inherited later := by
  obtain ⟨absent, declared, virtual⟩ := enter_ok entered
  intro key
  rw [declared, virtual]
  exact find?_entered_of_kind _ dispatches absent key

theorem Dispatches.enterAll {members : List (Member MethodFlags)}
    (dispatches : Dispatches inherited tables)
    (entered : enterAll file owner className members tables = .ok later) :
    Dispatches inherited later := by
  induction members generalizing tables with
  | nil =>
      cases entered
      exact dispatches
  | cons member rest inductionHypothesis =>
      obtain ⟨first, _, entered⟩ := Except.bind_ok entered
      obtain ⟨middle, enteredFirst, entered⟩ := Except.bind_ok entered
      exact inductionHypothesis (dispatches.enter enteredFirst) entered

variable {interfaces : List (Table String Method)}

/-- A class declares under a key what its file does. -/
theorem find?_declared_build
    (built : build file owner className inherited interfaces = .ok tables) (key : String) :
    tables.declared.find? key = some method ↔
      method.key = key ∧ ∃ member ∈ file.methods,
        Method.ofMember file owner className member = .ok method := by
  obtain ⟨entered, entering, built⟩ := Except.bind_ok built
  cases built
  simpa using find?_declared_enterAll entering key

/-- A class dispatches a key to its own declaration if that is virtual, or else as its superclass
does, or else as the first of its interfaces that does so. -/
theorem find?_virtual_build
    (built : build file owner className inherited interfaces = .ok tables) (key : String) :
    tables.virtual.find? key =
      ((tables.declared.find? key).filter Method.isVirtual).or
        ((inherited.find? key).or (interfaces.findSome? fun table => table.find? key)) := by
  obtain ⟨entered, entering, built⟩ := Except.bind_ok built
  cases built
  have start : Dispatches inherited { virtual := inherited } := fun key => by simp
  rw [Table.find?_foldl_insertMissing, start.enterAll entering key, Option.or_assoc]

theorem sorts_build
    (built : build file owner className inherited interfaces = .ok tables) : Sorts tables := by
  obtain ⟨entered, entering, built⟩ := Except.bind_ok built
  cases built
  have start : Sorts { virtual := inherited } := ⟨fun key => rfl, fun key => rfl⟩
  have sorts : Sorts entered := start.enterAll entering
  exact ⟨sorts.static, sorts.nonvirtual⟩

/-- Tables are built only if every method of the file can be read. -/
theorem exists_ofMember_of_enterAll {members : List (Member MethodFlags)}
    (entered : enterAll file owner className members tables = .ok later) :
    ∀ member ∈ members, ∃ method, Method.ofMember file owner className member = .ok method := by
  induction members generalizing tables with
  | nil => exact nofun
  | cons first rest inductionHypothesis =>
      obtain ⟨method, read, entered⟩ := Except.bind_ok entered
      obtain ⟨middle, _, entered⟩ := Except.bind_ok entered
      exact List.forall_mem_cons.2 ⟨⟨method, read⟩, inductionHypothesis entered⟩

theorem exists_ofMember_of_build
    (built : build file owner className inherited interfaces = .ok tables) :
    ∀ member ∈ file.methods,
      ∃ method, Method.ofMember file owner className member = .ok method := by
  obtain ⟨entered, entering, _⟩ := Except.bind_ok built
  exact exists_ofMember_of_enterAll entering

/-! ### Keys -/

/-- Texts without blanks can be told apart after they are joined by a blank. -/
theorem append_blank_injective {left right first second : List Char}
    (joined : left ++ ' ' :: right = first ++ ' ' :: second) (noneFirst : ' ' ∉ first)
    (noneSecond : ' ' ∉ second) : left = first ∧ right = second := by
  induction left generalizing first with
  | nil =>
      cases first with
      | nil => exact ⟨rfl, List.tail_eq_of_cons_eq joined⟩
      | cons head rest =>
          have same := List.head_eq_of_cons_eq joined
          exact absurd (same ▸ List.mem_cons_self) noneFirst
  | cons head rest inductionHypothesis =>
      cases first with
      | nil =>
          have tail := List.tail_eq_of_cons_eq joined
          exact absurd (by simp [← tail]) noneSecond
      | cons other others =>
          have tail := List.tail_eq_of_cons_eq joined
          have rests := inductionHypothesis tail fun membership =>
            noneFirst (List.mem_cons_of_mem _ membership)
          exact ⟨by rw [List.head_eq_of_cons_eq joined, rests.1], rests.2⟩

/-- A key tells a name and a descriptor without blanks. -/
theorem methodKey_eq {name descriptor first second : String}
    (same : methodKey name descriptor = methodKey first second)
    (noneFirst : ' ' ∉ first.toList) (noneSecond : ' ' ∉ second.toList) :
    name = first ∧ descriptor = second := by
  have joined := congrArg String.toList same
  simp only [methodKey, String.toList_append] at joined
  obtain ⟨names, descriptors⟩ := append_blank_injective
    (by simpa using joined) noneFirst noneSecond
  exact ⟨String.toList_inj.1 names, String.toList_inj.1 descriptors⟩

/-- Names without blanks end where the first blank of the key is. -/
theorem methodKey_eq_of_names {name descriptor first second : String}
    (same : methodKey name descriptor = methodKey first second)
    (none : ' ' ∉ name.toList) (noneFirst : ' ' ∉ first.toList) :
    name = first ∧ descriptor = second := by
  have joined := congrArg String.toList same
  simp only [methodKey, String.toList_append, List.append_assoc] at joined
  have joined : name.toList ++ ' ' :: descriptor.toList = first.toList ++ ' ' :: second.toList := by
    simpa using joined
  have before {text rest : List Char} (none : ' ' ∉ text) :
      (text ++ ' ' :: rest).takeWhile (· ≠ ' ') = text := by
    rw [List.takeWhile_append_of_pos]
    · simp
    · intro char among
      exact decide_eq_true fun same : char = ' ' => none (same ▸ among)
  have names : name.toList = first.toList := by
    rw [← before none, joined, before noneFirst]
  rw [names] at joined
  have rests := List.tail_eq_of_cons_eq (List.append_cancel_left joined)
  exact ⟨String.toList_inj.1 names, String.toList_inj.1 rests⟩

end MethodTables
end JavaMachine
