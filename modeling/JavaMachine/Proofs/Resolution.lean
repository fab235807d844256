import JavaMachine.Proofs.Actions

/-!
# Resolution of constants

A lookup either is refused before anything happens, or gives what is remembered, or finds a result
and remembers it. Lookups lead to lookups of simpler kinds and to loading, but a world only develops
meanwhile, and what a lookup gives is what the constant means.
-/

namespace JavaMachine

/-- How many kinds of lookups lie below one: texts and numbers are found at once. -/
def ConstantKind.rank : ConstantKind → Nat
  | utf8 | int | float | long | double => 0
  | classRef | string | nameAndType => 1
  | method | interfaceMethod | field => 2

/-- The computation lets every sound world be worked on. -/
def Working {α : Type} (action : WorldM α) : Prop :=
  ∀ world : World, world.Sound → Ends World.Works world action fun _ _ => True

theorem Evolving.working {α : Type} {action : WorldM α} (evolving : Evolving action) :
    Working action :=
  fun world sound => (evolving world sound).relax fun _ => World.Evolves.toWorks

end JavaMachine

namespace JavaMachine.World

variable {world middle later : World} {id : ClassId} {kind : ConstantKind} {index : UInt16}
variable {file : ClassFile} {constant : Constant} {result : kind.Meaning} {limit : Nat}

/-! ### The pool of a class -/

theorem attachedPool_eq_ok {pool : ResolvedPool} : world.attachedPool id = .ok (file, pool) ↔
    (world.type id).file? = some file ∧ (world.type id).pool? = some pool := by
  unfold attachedPool
  dsimp only
  rw [Class.file?, Class.pool?]
  cases (world.type id).declared? with
  | none => simp
  | some body => cases pool : body.pool <;> simp [pool]

theorem constantAt_eq_ok : world.constantAt id index = .ok constant ↔
    ∃ file, (world.type id).file? = some file ∧ (world.type id).pool?.isSome ∧
      file.constant? index = some constant := by
  unfold constantAt
  cases attached : world.attachedPool id with
  | error error =>
      simp only [reduceCtorEq, false_iff, not_exists, not_and, Option.isSome_iff_exists]
      rintro file declared ⟨pool, has⟩
      rw [attachedPool_eq_ok.2 ⟨declared, has⟩] at attached
      cases attached
  | ok known =>
      obtain ⟨file, pool⟩ := known
      obtain ⟨declared, has⟩ := attachedPool_eq_ok.1 attached
      dsimp only
      cases found : file.constant? index with
      | none => simp [declared, found]
      | some own => simp [declared, has, found]

theorem tagAt_eq_ok {tag : ConstantTag} : world.tagAt id index = .ok tag ↔
    ∃ constant, world.constantAt id index = .ok constant ∧ constant.tag = tag := by
  unfold tagAt
  cases world.constantAt id index with
  | error error => simp [Except.map]
  | ok constant => simp [Except.map]

theorem text?_of_constant {bytes : List UInt8} (found : file.constant? index = some (.utf8 bytes)) :
    file.text? index = Text.ModifiedUtf8.decode bytes := by
  rw [ClassFile.text?, found]

theorem className?_of_constant {name : UInt16}
    (found : file.constant? index = some (.classRef name)) :
    file.className? index = file.text? name := by
  rw [ClassFile.className?, found]

/-- A class to which a pool is attached is there. -/
theorem present_of_pool? (attached : (world.type id).pool?.isSome) :
    id.index < world.classes.size := by
  by_contra absent
  rw [type_eq_default (Nat.le_of_not_lt absent)] at attached
  cases attached

theorem Grows.file?_eq (grows : world.Grows later) (present : id.index < world.classes.size) :
    (later.type id).file? = (world.type id).file? := by
  simpa using congrArg Class.file? (grows.lasting id present)

theorem Grows.loader_eq (grows : world.Grows later) (present : id.index < world.classes.size) :
    (later.type id).loader = (world.type id).loader := by
  simpa using congrArg Class.loader (grows.lasting id present)

/-- A pool is attached to linked classes only. -/
theorem Vetted.linked_of_pool? (vetted : world.Vetted) (attached : (world.type id).pool?.isSome) :
    (world.type id).linkage?.isSome := by
  refine ((vetted.classes id).pool fun isArray => ?_).1 attached
  rw [Class.pool?_of_isArray isArray] at attached
  cases attached

/-! ### How lookups come out -/

/-- What may come of a lookup that finds out by `find` what it does not remember. -/
inductive LookedUp (world : World) (id : ClassId) (kind : ConstantKind) (index : UInt16)
    (find : Constant → WorldM kind.Meaning) : Except Error kind.Meaning × World → Prop where
  | refused {error : Error} (refused : world.constantAt id index = .error error) :
      LookedUp world id kind index find (.error error, world)
  | mismatch {constant : Constant} (known : world.constantAt id index = .ok constant)
      (differs : constant.tag ≠ kind.tag) : LookedUp world id kind index find
        (.error (.internal (.tagMismatch index constant.tag kind.tag)), world)
  | remembered {constant : Constant} {result : kind.Meaning}
      (known : world.constantAt id index = .ok constant) (same : constant.tag = kind.tag)
      (resolved : world.resolved? id kind index = some result) :
      LookedUp world id kind index find (.ok result, world)
  | found {constant : Constant} {result : kind.Meaning} {later : World}
      (known : world.constantAt id index = .ok constant) (same : constant.tag = kind.tag)
      (unresolved : world.resolved? id kind index = none)
      (finds : runFrom world (find constant) = (.ok result, later)) :
      LookedUp world id kind index find (.ok result, later.rememberConstant id kind index result)
  | failed {constant : Constant} {error : Error} {later : World}
      (known : world.constantAt id index = .ok constant) (same : constant.tag = kind.tag)
      (unresolved : world.resolved? id kind index = none)
      (finds : runFrom world (find constant) = (.error error, later)) :
      LookedUp world id kind index find (.error error, later)

theorem lookedUp (world : World) (id : ClassId) (kind : ConstantKind) (index : UInt16)
    (find : Constant → WorldM kind.Meaning) :
    LookedUp world id kind index find (runFrom world (lookUp id kind index find)) := by
  rw [lookUp, runFrom_bind_ok runFrom_get]
  cases known : world.constantAt id index with
  | error error => exact .refused known
  | ok constant =>
      have first : runFrom world (ofExcept (.ok constant) : WorldM Constant) =
        (.ok constant, world) := rfl
      rw [runFrom_bind_ok first]
      by_cases same : constant.tag = kind.tag
      · obtain ⟨file, declared, attached, _⟩ := constantAt_eq_ok.1 known
        obtain ⟨pool, has⟩ := Option.isSome_iff_exists.1 attached
        have pooled : world.attachedPool id = .ok (file, pool) :=
          attachedPool_eq_ok.2 ⟨declared, has⟩
        have resolved : world.resolved? id kind index = pool.find? kind index := by
          rw [resolved?, has, Option.bind_some]
        have second : runFrom world (ofExcept (world.attachedPool id)) =
            (.ok (file, pool), world) := by
          rw [pooled]
          rfl
        rw [if_neg (not_not.2 same), runFrom_bind_ok second]
        dsimp only
        rw [← resolved]
        cases entry : world.resolved? id kind index with
        | some result => exact .remembered known same entry
        | none =>
            rcases finds : runFrom world (find constant) with ⟨error | result, later⟩
            · rw [runFrom_bind_error finds]
              exact .failed known same entry finds
            · rw [runFrom_bind_ok finds]
              exact .found known same entry finds
      · rw [if_pos same]
        exact .mismatch known same

/-- What is remembered of a constant of the kind is given, and nothing happens. -/
theorem lookUp_of_resolved {find : Constant → WorldM kind.Meaning}
    (known : world.constantAt id index = .ok constant) (same : constant.tag = kind.tag)
    (resolved : world.resolved? id kind index = some result) :
    runFrom world (lookUp id kind index find) = (.ok result, world) := by
  have looks := lookedUp world id kind index find
  generalize runFrom world (lookUp id kind index find) = ends at looks ⊢
  cases looks with
  | refused refused => cases known.symm.trans refused
  | mismatch knownToo differs =>
      cases known.symm.trans knownToo
      exact absurd same differs
  | remembered _ _ entry =>
      cases resolved.symm.trans entry
      rfl
  | found _ _ unresolved | failed _ _ unresolved => cases resolved.symm.trans unresolved

/-! ### What is remembered -/

/-- The world in which the pool of a class, if one is attached, remembers something else. -/
def changePool (world : World) (id : ClassId) (change : ResolvedPool → ResolvedPool) : World :=
  world.modifyDeclared id fun body => { body with pool := body.pool.map change }

theorem keeps_changePool (world : World) (id : ClassId) (change : ResolvedPool → ResolvedPool) :
    world.Keeps (world.changePool id change) :=
  .modifyDeclared world id (fun _ => rfl) fun _ => rfl

theorem retains_changePool (world : World) (id : ClassId) (change : ResolvedPool → ResolvedPool) :
    world.Retains (world.changePool id change) :=
  (keeps_changePool world id change).settles.toRetains

section ChangePool

variable {other : ClassId} {change : ResolvedPool → ResolvedPool}

theorem pool?_changePool : ((world.changePool id change).type other).pool? =
    if id = other then (world.type other).pool?.map change else (world.type other).pool? := by
  rw [changePool, modifyDeclared, type_modifyType]
  by_cases same : id = other
  · subst same
    by_cases present : id.index < world.classes.size
    · rw [if_pos ⟨rfl, present⟩, if_pos rfl]
      split
      next body declared => simp [Class.pool?, Class.declared?, declared]
      next plain =>
        cases kind : (world.type id).kind with
        | declared body => exact absurd kind (plain body)
        | primitiveArray | referenceArray => simp [Class.pool?, Class.declared?, kind]
    · rw [if_neg fun here => present here.2, if_pos rfl,
        type_eq_default (Nat.le_of_not_lt present)]
      rfl
  · rw [if_neg fun here => same here.1, if_neg same]

theorem resolved?_changePool (world : World) (id other : ClassId) (kind : ConstantKind)
    (index : UInt16) : (world.changePool id change).resolved? other kind index =
      if id = other then (world.type other).pool?.bind fun pool => (change pool).find? kind index
      else world.resolved? other kind index := by
  rw [resolved?, pool?_changePool]
  split
  · rw [Option.bind_map]
    rfl
  · rfl

theorem static_changePool : ((world.changePool id change).type other).static =
    (world.type other).static := by
  rw [changePool, modifyDeclared, type_modifyType]
  split
  · split
    next body declared => simp [Class.static, Class.declared?, declared]
    next => rfl
  · rfl

/-- What a pool comes to remember may be given, and agrees with the file. -/
theorem Vetted.changePool (vetted : world.Vetted)
    (fine : ∀ pool, (world.type id).pool? = some pool → ∀ kind index result,
      (change pool).find? kind index = some result → world.Offers kind result ∧
        ∀ file, (world.type id).file? = some file → world.Reads file kind index result) :
    (world.changePool id change).Vetted := by
  have keeps := keeps_changePool world id change
  have usable : world.KeepsUsable (world.changePool id change) := fun other _ => keeps.lasting other
  refine vetted.of_changes usable keeps.objects (fun other => ?_) rfl
  rw [World.changePool, modifyDeclared, type_modifyType]
  split
  next same =>
    rw [← same.1]
    split
    next body declared =>
      have body? : (world.type id).declared? = some body := Class.declared?_eq_some.2 declared
      refine .inr (((vetted.classes id).changePool declared
        fun pool attached kind index result resolved => ?_).mono usable keeps.objects)
      have attached : (world.type id).pool? = some pool := by
        rw [Class.pool?, body?]
        exact attached
      obtain ⟨offers, reads⟩ := fine pool attached kind index result resolved
      exact ⟨offers, reads body.file (by rw [Class.file?, body?]; rfl)⟩
    next => exact .inl rfl
  next => exact .inl rfl

end ChangePool

theorem rememberConstant_eq : world.rememberConstant id kind index result =
    world.changePool id fun pool => pool.remember index kind result := rfl

/-- Nothing else is remembered besides. -/
theorem resolved?_rememberConstant {id other : ClassId} {constant : ConstantKind} {place : UInt16}
    (elsewhere : ¬ (id = other ∧ kind = constant ∧ index = place)) :
    (world.rememberConstant id kind index result).resolved? other constant place =
      world.resolved? other constant place := by
  rw [rememberConstant_eq, resolved?_changePool]
  split
  next same =>
    refine congrArg (Option.bind _) (funext fun pool => ?_)
    rw [ResolvedPool.find?_remember, dif_neg fun here => elsewhere ⟨same, here⟩]
  next => rfl

theorem resolved?_rememberConstant_self (attached : (world.type id).pool?.isSome) :
    (world.rememberConstant id kind index result).resolved? id kind index = some result := by
  obtain ⟨pool, has⟩ := Option.isSome_iff_exists.1 attached
  rw [rememberConstant_eq, resolved?_changePool, if_pos rfl, has, Option.bind_some,
    ResolvedPool.find?_remember, dif_pos ⟨rfl, rfl⟩]

theorem Vetted.remember (vetted : world.Vetted) (offers : world.Offers kind result)
    (reads : ∀ file, (world.type id).file? = some file → world.Reads file kind index result) :
    (world.rememberConstant id kind index result).Vetted := by
  refine vetted.changePool fun pool attached constant place known resolved => ?_
  rw [ResolvedPool.find?_remember] at resolved
  split at resolved
  next same =>
    obtain ⟨rfl, rfl⟩ := same
    cases resolved
    exact ⟨offers, reads⟩
  next =>
    have vets := vetted.classes id
    exact ⟨vets.constants pool attached constant place known resolved, fun file declared =>
      vets.reads file declared pool attached constant place known resolved⟩

/-- What a lookup gives may be given, agrees with the file, and is what the constant means if the
world knew its constants. -/
structure Resolves (world : World) (id : ClassId) (kind : ConstantKind) (index : UInt16)
    (result : kind.Meaning) (later : World) : Prop where
  offers : world.Vetted → later.Offers kind result
  reads : world.Vetted → ∀ file, (world.type id).file? = some file →
    later.Reads file kind index result
  literal : world.Vetted → world.LiteralsKnown → kind = .string → later.Means id kind index result
  means : world.Versed → later.Means id kind index result

/-- Work that resolves no constants but by lookups of lower ranks. The same definitions are under
way after it, and the same loaders are there. -/
structure Searches (limit : Nat) (world later : World) : Prop extends world.Works later where
  settles : world.Settles later
  untouched : ∀ kind : ConstantKind, limit ≤ kind.rank → ∀ id index,
    later.resolved? id kind index = world.resolved? id kind index

namespace Searches

theorem trans (first : Searches limit world middle) (second : Searches limit middle later) :
    Searches limit world later where
  toWorks := first.toWorks.trans second.toWorks
  settles := first.settles.trans second.settles
  untouched kind higher id index :=
    (second.untouched kind higher id index).trans (first.untouched kind higher id index)

instance : IsTrans World (Searches limit) := ⟨fun _ _ _ => trans⟩

theorem of_evolves (evolves : world.Evolves later) : Searches limit world later where
  toWorks := evolves.toWorks
  settles := evolves.settles
  untouched kind _ id index := evolves.pools id kind index

theorem mono {higher : Nat} (searches : Searches limit world later) (above : limit ≤ higher) :
    Searches higher world later where
  toWorks := searches.toWorks
  settles := searches.settles
  untouched kind ranks := searches.untouched kind (Nat.le_trans above ranks)

/-- Where a search has led from a class with a pool, that pool is attached still. -/
theorem attached (searches : Searches limit world later) (vetted : world.Vetted)
    (attached : (world.type id).pool?.isSome) : (later.type id).pool?.isSome := by
  have linked := vetted.linked_of_pool? attached
  have declared : ¬ (later.type id).isArray := by
    rw [searches.retains.isArray_eq (Class.isUsable_of_linkage? linked)]
    obtain ⟨linkage, linked⟩ := Option.isSome_iff_exists.1 linked
    exact Class.not_isArray_of_linkage? linked
  refine (((searches.vets vetted).classes id).pool declared).2 ?_
  rw [searches.retains.usable.linkage?_eq linked]
  exact linked

section Remembered

variable (searches : Searches kind.rank world later) (attached : (world.type id).pool?.isSome)
  (unresolved : world.resolved? id kind index = none)
  (resolves : world.Resolves id kind index result later)
include searches attached unresolved resolves

/-- What a search has found is remembered besides what was remembered before. -/
theorem recollects_remembered (versed : world.Versed) :
    world.Recollects (later.rememberConstant id kind index result) where
  known other constant place known entry := by
    have retains : later.Retains (later.rememberConstant id kind index result) :=
      retains_changePool later id _
    by_cases same : id = other ∧ kind = constant ∧ index = place
    · obtain ⟨rfl, rfl, rfl⟩ := same
      have attachedStill := searches.attached versed.vetted attached
      rw [resolved?_rememberConstant_self attachedStill] at entry
      cases entry
      have usable := Class.isUsable_of_linkage?
        ((searches.vets versed.vetted).linked_of_pool? attachedStill)
      exact ⟨retains.usable.isUsable usable,
        (resolves.means versed).mono searches.sound retains usable⟩
    · rw [resolved?_rememberConstant same] at entry
      obtain ⟨usable, means⟩ := (searches.recollects versed).known other constant place known entry
      exact ⟨retains.usable.isUsable usable, means.mono searches.sound retains usable⟩
  remembers other constant place known entry := by
    have entry := (searches.recollects versed).remembers other constant place known entry
    rw [resolved?_rememberConstant, entry]
    rintro ⟨rfl, rfl, rfl⟩
    rw [searches.untouched kind (Nat.le_refl _), unresolved] at entry
    cases entry

/-- Canonical strings are remembered as canonical strings. -/
theorem literals_remembered (vetted : world.Vetted) (known : world.LiteralsKnown) :
    (later.rememberConstant id kind index result).LiteralsKnown := by
  have retains : later.Retains (later.rememberConstant id kind index result) :=
    retains_changePool later id _
  intro other place object entry
  by_cases same : id = other ∧ kind = .string ∧ index = place
  · obtain ⟨rfl, rfl, rfl⟩ := same
    have attachedStill := searches.attached vetted attached
    rw [resolved?_rememberConstant_self attachedStill] at entry
    cases entry
    have usable := Class.isUsable_of_linkage?
      ((searches.vets vetted).linked_of_pool? attachedStill)
    exact ⟨retains.usable.isUsable usable,
      (resolves.literal vetted known rfl).mono_string retains usable⟩
  · rw [resolved?_rememberConstant same] at entry
    obtain ⟨usable, means⟩ := searches.literals vetted known other place object entry
    exact ⟨retains.usable.isUsable usable, means.mono_string retains usable⟩

theorem works_remembered : world.Works (later.rememberConstant id kind index result) := by
  have keeps : later.Keeps (later.rememberConstant id kind index result) :=
    keeps_changePool later id _
  have retains := keeps.settles.toRetains
  have mirrors : later.SameMirrors (later.rememberConstant id kind index result) :=
    sameMirrors_modifyDeclared later id _
  have vets (vetted : later.Vetted) (start : world.Vetted) :
      (later.rememberConstant id kind index result).Vetted := by
    refine vetted.remember (resolves.offers start) fun file declared => ?_
    rw [searches.grows.file?_eq (present_of_pool? attached)] at declared
    exact resolves.reads start file declared
  exact {
    sound := keeps.sound searches.sound
    grows := searches.grows.trans keeps.grows
    vets := fun vetted => vets (searches.vets vetted) vetted
    idle := fun loader name underWay => searches.idle loader name (keeps.settles.idle underWay)
    retains := searches.retains.trans retains
    regular := fun regular => (searches.regular regular).of_lasting searches.sound keeps.lasting
      keeps.objects keeps.loaders keeps.answers keeps.strings
    strings := fun known => (searches.strings known).of_same retains keeps.objects keeps.strings
    literals := searches.literals_remembered attached unresolved resolves
    recollects := searches.recollects_remembered attached unresolved resolves
    leaves := searches.leaves.trans (.of_lasting rfl keeps.lasting fun _ => static_changePool)
      searches.sound searches.vets retains searches.retains.usable searches.grows.objects
        keeps.objects
    keepsMirrors := searches.keepsMirrors.trans mirrors.keepsMirrors
    mirrored := fun before => (searches.mirrored before).of_lasting keeps.lasting mirrors
      keeps.objects keeps.loaders }

theorem remembered :
    Searches (kind.rank + 1) world (later.rememberConstant id kind index result) where
  toWorks := searches.works_remembered attached unresolved resolves
  settles := searches.settles.trans (keeps_changePool later id _).settles
  untouched constant above other place := by
    rw [resolved?_rememberConstant, searches.untouched constant (Nat.le_of_succ_le above)]
    rintro ⟨_, rfl, _⟩
    exact Nat.not_succ_le_self _ above

end Remembered
end Searches

theorem Resolves.mono {final : World} (resolves : world.Resolves id kind index result later)
    (sound : later.Sound) (retains : later.Retains final)
    (usable : world.Vetted → (later.type id).isUsable) :
    world.Resolves id kind index result final where
  offers vetted := (resolves.offers vetted).mono retains.usable
  reads vetted file declared := (resolves.reads vetted file declared).mono retains.usable
  literal vetted known string := by
    subst string
    exact (resolves.literal vetted known rfl).mono_string retains (usable vetted)
  means versed := (resolves.means versed).mono sound retains (usable versed.vetted)

/-- The computation is a lookup that finds what the constant means. -/
def LooksUp (world : World) (id : ClassId) (kind : ConstantKind) (index : UInt16)
    (action : WorldM kind.Meaning) : Prop :=
  ∃ find, action = lookUp id kind index find ∧ ∀ constant,
    world.constantAt id index = .ok constant →
      Ends (Searches kind.rank) world (find constant) (world.Resolves id kind index)

/-- What the constant means is given as well where it is remembered. -/
theorem LooksUp.ends {action : WorldM kind.Meaning} (looksUp : world.LooksUp id kind index action)
    (sound : world.Sound) :
    Ends (Searches (kind.rank + 1)) world action (world.Resolves id kind index) := by
  obtain ⟨find, rfl, finding⟩ := looksUp
  have stays : Searches (kind.rank + 1) world world := .of_evolves (.refl sound)
  have looks := lookedUp world id kind index find
  rcases ends : runFrom world (lookUp id kind index find) with ⟨outcome, later⟩
  rw [ends] at looks
  cases looks with
  | refused | mismatch => exact .of_error ends stays
  | @remembered constant result known same resolved =>
      refine .of_ok ends stays ⟨fun vetted => ?_, fun vetted file declared => ?_,
        fun _ known string => ?_, fun versed => ?_⟩
      · obtain ⟨pool, has, entry⟩ := Option.bind_eq_some_iff.1 resolved
        exact (vetted.classes id).constants pool has kind index result entry
      · obtain ⟨pool, has, entry⟩ := Option.bind_eq_some_iff.1 resolved
        exact (vetted.classes id).reads file declared pool has kind index result entry
      · subst string
        exact (known id index result resolved).2
      · exact (versed.known id kind index result resolved).2
  | @found constant result later known same unresolved finds =>
      obtain ⟨file, declared, attached, _⟩ := constantAt_eq_ok.1 known
      have found := finding constant known
      have searches := found.leads
      have resolves := found.gives result (by rw [finds])
      rw [finds] at searches resolves
      refine .of_ok ends (searches.remembered attached unresolved resolves) ?_
      refine resolves.mono searches.sound (retains_changePool later id _) fun vetted => ?_
      exact Class.isUsable_of_linkage? ((searches.vets vetted).linked_of_pool?
        (searches.attached vetted attached))
  | @failed constant error later known same unresolved finds =>
      have searches := (finding constant known).leads
      rw [finds] at searches
      exact .of_error ends (searches.mono (Nat.le_succ _))

/-! ### Texts, classes and strings -/

theorem resolveText_looksUp (id : ClassId) (index : UInt16) (sound : world.Sound) :
    world.LooksUp id .utf8 index (resolveText id index) := by
  refine ⟨_, rfl, fun constant known => ?_⟩
  obtain ⟨file, declared, _, found⟩ := constantAt_eq_ok.1 known
  have stays : Searches ConstantKind.utf8.rank world world := .of_evolves (.refl sound)
  split
  next bytes =>
    split
    next text decoded =>
      refine .pure stays ⟨fun _ => trivial, fun _ own declaredToo => ?_, nofun, fun _ => ?_⟩
      · cases declared.symm.trans declaredToo
        exact (text?_of_constant found).trans decoded
      · exact ⟨file, _, declared, found, .utf8 decoded⟩
    next => exact .throw stays
  next => exact .throw stays

theorem resolveClass_looksUp (id : ClassId) (index : UInt16) (sound : world.Sound) :
    world.LooksUp id .classRef index (resolveClass id index) := by
  refine ⟨_, rfl, fun constant known => ?_⟩
  obtain ⟨file, declared, attached, found⟩ := constantAt_eq_ok.1 known
  have present := present_of_pool? attached
  split
  next name =>
    refine ((resolveText_looksUp id name sound).ends sound).bind
      fun className middle searches resolves => ?_
    apply Ends.bindGet
    refine ((Load.required_ends load_finds _ className searches.sound).withLeads.relax
      fun _ => Searches.of_evolves).mono fun type later ends => ?_
    obtain ⟨evolves, leads⟩ := ends
    have written (vetted : world.Vetted) : file.text? name = some className :=
      resolves.reads vetted file declared
    constructor
    · exact fun _ => leads.isUsable evolves.sound
    · intro vetted own declaredToo
      cases declared.symm.trans declaredToo
      exact ⟨leads.isUsable evolves.sound, className,
        (className?_of_constant found).trans (written vetted),
        evolves.sound.name_eq_iff leads⟩
    · nofun
    · intro versed
      refine ⟨file, _, ?_, found, .classRef (written versed.vetted) ?_⟩
      · rw [(searches.grows.trans evolves.grows).file?_eq present, declared]
      · rwa [evolves.grows.loader_eq (Nat.lt_of_lt_of_le present searches.grows.size)]
  next => exact .throw (.of_evolves (.refl sound))

theorem resolveString_looksUp (id : ClassId) (index : UInt16) (sound : world.Sound) :
    world.LooksUp id .string index (resolveString id index) := by
  refine ⟨_, rfl, fun constant known => ?_⟩
  obtain ⟨file, declared, attached, found⟩ := constantAt_eq_ok.1 known
  have present := present_of_pool? attached
  split
  next place =>
    refine ((resolveText_looksUp id place sound).ends sound).bind
      fun text middle searches resolves => ?_
    refine ((Load.intern_ends load_finds text searches.sound).withLeads.relax
      fun _ => Searches.of_evolves).mono fun object later ends => ?_
    obtain ⟨evolves, interned⟩ := ends
    have means (vetted : world.Vetted) : later.Means id .string index object := by
      refine ⟨file, _, ?_, found, .string (resolves.reads vetted file declared) interned⟩
      rw [(searches.grows.trans evolves.grows).file?_eq present, declared]
    exact ⟨fun _ => trivial, fun _ _ _ => trivial, fun vetted _ _ => means vetted,
      fun versed => means versed.vetted⟩
  next => exact .throw (.of_evolves (.refl sound))

/-! ### Methods and fields -/

theorem resolveNameAndType_looksUp (id : ClassId) (index : UInt16) (sound : world.Sound) :
    world.LooksUp id .nameAndType index (resolveNameAndType id index) := by
  refine ⟨_, rfl, fun constant known => ?_⟩
  obtain ⟨file, declared, attached, found⟩ := constantAt_eq_ok.1 known
  have present := present_of_pool? attached
  split
  next first second =>
    refine ((resolveText_looksUp id first sound).ends sound).bind
      fun name middle searches resolves => ?_
    have sound := searches.sound
    refine ((resolveText_looksUp id second sound).ends sound).bind
      fun descriptor later searchesOn resolvesToo => ?_
    refine .pure (.of_evolves (.refl searchesOn.sound)) ?_
    refine ⟨fun _ => trivial, fun _ _ _ => trivial, nofun, fun versed => ?_⟩
    have declaredStill : (middle.type id).file? = some file := by
      rw [searches.grows.file?_eq present, declared]
    refine ⟨file, _, ?_, found, .nameAndType (resolves.reads versed.vetted file declared)
      (resolvesToo.reads (searches.vets versed.vetted) file declaredStill)⟩
    rw [(searches.grows.trans searchesOn.grows).file?_eq present, declared]
  next => exact .throw (.of_evolves (.refl sound))

/-- What refers to a member of a class is resolved before the member is looked for. -/
theorem reference_ends {α : Type} {owner nameAndType : UInt16}
    {next : ClassId → String × String → WorldM α} {post : α → World → Prop}
    (declared : (world.type id).file? = some file) (attached : (world.type id).pool?.isSome)
    (sound : world.Sound)
    (rest : ∀ type names later, Searches 2 world later →
      (world.Versed → ¬ (later.type type).isArray → later.PointsTo (world.type id).loader file owner
        nameAndType type names.1 names.2) → Ends (Searches 2) later (next type names) post) :
    Ends (Searches 2) world (do
      let type ← resolveClass id owner
      let names ← resolveNameAndType id nameAndType
      next type names) post := by
  have present := present_of_pool? attached
  refine ((resolveClass_looksUp id owner sound).ends sound).bind
    fun type middle searches resolves => ?_
  have sound := searches.sound
  refine ((resolveNameAndType_looksUp id nameAndType sound).ends sound).bind
    fun names later searchesOn resolvesToo => ?_
  refine rest type names later (searches.trans searchesOn) fun versed plain => ?_
  have declaredThen : (middle.type id).file? = some file := by
    rw [searches.grows.file?_eq present, declared]
  have declaredLater : (later.type id).file? = some file := by
    rw [(searches.grows.trans searchesOn.grows).file?_eq present, declared]
  obtain ⟨_, _, own, found, denotes⟩ := resolves.means versed
  obtain ⟨_, _, ownToo, foundToo, denotesToo⟩ := resolvesToo.means (searches.versed versed)
  cases declaredThen.symm.trans own
  cases declaredLater.symm.trans ownToo
  rw [searches.grows.loader_eq present] at denotes
  cases denotes with
  | classRef written leads =>
      cases denotesToo with
      | nameAndType writtenName writtenDescriptor =>
          exact ⟨⟨_, (className?_of_constant found).trans written,
            leads.mono searches.sound searchesOn.retains⟩, plain,
              ⟨_, _, foundToo, writtenName, writtenDescriptor⟩⟩

theorem findReferredMethod_ends {owner nameAndType : UInt16}
    (declared : (world.type id).file? = some file) (attached : (world.type id).pool?.isSome)
    (sound : world.Sound) :
    Ends (Searches 2) world (findReferredMethod id owner nameAndType) fun result later =>
      (∀ method, result = some method →
        ∃ id key, (later.type id).methods.declared.find? key = some method) ∧
      (later.type id).file? = some file ∧
      (world.Versed → ∃ type name descriptor, later.PointsTo (later.type id).loader file owner
        nameAndType type name descriptor ∧ result = later.findMethod type name descriptor) := by
  have present := present_of_pool? attached
  refine reference_ends declared attached sound fun type names later searches points => ?_
  apply Ends.bindGet
  dsimp only
  split
  · exact .throw (.of_evolves (.refl searches.sound))
  next plain =>
    refine .pure (.of_evolves (.refl searches.sound)) ⟨fun method found => ?_, ?_, fun versed => ?_⟩
    · obtain ⟨declarer, _, declares⟩ := List.exists_of_findSome?_eq_some found
      exact ⟨declarer, _, declares⟩
    · rw [searches.grows.file?_eq present, declared]
    · rw [searches.grows.loader_eq present]
      exact ⟨type, names.1, names.2, points versed plain, rfl⟩

theorem resolveMethod_looksUp (id : ClassId) (index : UInt16) (sound : world.Sound) :
    world.LooksUp id .method index (resolveMethod id index) := by
  refine ⟨_, rfl, fun constant known => ?_⟩
  obtain ⟨file, declared, attached, found⟩ := constantAt_eq_ok.1 known
  split
  next owner nameAndType =>
    refine (findReferredMethod_ends declared attached sound).mono fun result later ends => ?_
    obtain ⟨offers, declaredLater, refers⟩ := ends
    refine ⟨fun _ => offers, fun _ _ _ => trivial, nofun, fun versed => ?_⟩
    obtain ⟨type, name, descriptor, points, rfl⟩ := refers versed
    exact ⟨file, _, declaredLater, found, .method points⟩
  next => exact .throw (.of_evolves (.refl sound))

theorem resolveInterfaceMethod_looksUp (id : ClassId) (index : UInt16) (sound : world.Sound) :
    world.LooksUp id .interfaceMethod index (resolveInterfaceMethod id index) := by
  refine ⟨_, rfl, fun constant known => ?_⟩
  obtain ⟨file, declared, attached, found⟩ := constantAt_eq_ok.1 known
  split
  next owner nameAndType =>
    refine (findReferredMethod_ends declared attached sound).mono fun result later ends => ?_
    obtain ⟨offers, declaredLater, refers⟩ := ends
    refine ⟨fun _ => offers, fun _ _ _ => trivial, nofun, fun versed => ?_⟩
    obtain ⟨type, name, descriptor, points, rfl⟩ := refers versed
    exact ⟨file, _, declaredLater, found, .interfaceMethod points⟩
  next => exact .throw (.of_evolves (.refl sound))

theorem resolveField_looksUp (id : ClassId) (index : UInt16) (sound : world.Sound) :
    world.LooksUp id .field index (resolveField id index) := by
  refine ⟨_, rfl, fun constant known => ?_⟩
  obtain ⟨file, declared, attached, found⟩ := constantAt_eq_ok.1 known
  have present := present_of_pool? attached
  split
  next owner nameAndType =>
    refine (reference_ends declared attached sound fun type names later searches points => ?_)
    apply Ends.bindGet
    dsimp only
    split
    · exact .throw (.of_evolves (.refl searches.sound))
    next plain =>
      refine .pure (.of_evolves (.refl searches.sound))
        ⟨fun _ slot found => ?_, fun _ _ _ => trivial, nofun, fun versed => ?_⟩
      · obtain ⟨declarer, _, declares⟩ := List.exists_of_findSome?_eq_some found
        exact ⟨declarer, _, _, declares⟩
      · refine ⟨file, _, ?_, found, ?_⟩
        · rw [searches.grows.file?_eq present, declared]
        · rw [searches.grows.loader_eq present]
          exact .field (points versed plain)
  next => exact .throw (.of_evolves (.refl sound))

/-! ### All kinds -/

theorem resolve_looksUp (id : ClassId) (kind : ConstantKind) (index : UInt16)
    (sound : world.Sound) : world.LooksUp id kind index (resolve id kind index) := by
  cases kind with
  | classRef => exact resolveClass_looksUp id index sound
  | string => exact resolveString_looksUp id index sound
  | method => exact resolveMethod_looksUp id index sound
  | interfaceMethod => exact resolveInterfaceMethod_looksUp id index sound
  | field => exact resolveField_looksUp id index sound
  | nameAndType => exact resolveNameAndType_looksUp id index sound
  | utf8 => exact resolveText_looksUp id index sound
  | int | float | long | double =>
      -- a number is read off the constant
      refine ⟨_, rfl, fun constant known => ?_⟩
      obtain ⟨file, declared, _, found⟩ := constantAt_eq_ok.1 known
      split
      · exact .pure (.of_evolves (.refl sound)) ⟨fun _ => trivial, fun _ _ _ => trivial, nofun,
          fun _ => ⟨file, _, declared, found, by constructor⟩⟩
      · exact .throw (.of_evolves (.refl sound))

/-- What a lookup of any kind gives is what the constant means. -/
theorem resolve_ends (id : ClassId) (kind : ConstantKind) (index : UInt16) (sound : world.Sound) :
    Ends (Searches (kind.rank + 1)) world (resolve id kind index)
      (world.Resolves id kind index) :=
  (resolve_looksUp id kind index sound).ends sound

/-- What can be resolved is of the kind for which it is resolved. -/
theorem tagAt_of_resolve {result : kind.Meaning} (sound : world.Sound)
    (resolves : runFrom world (resolve id kind index) = (.ok result, later)) :
    world.tagAt id index = .ok kind.tag := by
  obtain ⟨find, isLookUp, _⟩ := resolve_looksUp id kind index sound
  have looks := lookedUp world id kind index find
  rw [← isLookUp, resolves] at looks
  cases looks with
  | remembered known same | found known same => exact tagAt_eq_ok.2 ⟨_, known, same⟩

theorem resolve_working (id : ClassId) (kind : ConstantKind) (index : UInt16) :
    Working (resolve id kind index) :=
  fun _ sound => ((resolve_ends id kind index sound).relax fun _ => Searches.toWorks).mono
    fun _ _ _ => trivial

theorem resolveClass_working (id : ClassId) (index : UInt16) : Working (resolveClass id index) :=
  resolve_working id .classRef index

theorem resolveMethod_working (id : ClassId) (index : UInt16) : Working (resolveMethod id index) :=
  resolve_working id .method index

theorem resolveInterfaceMethod_working (id : ClassId) (index : UInt16) :
    Working (resolveInterfaceMethod id index) :=
  resolve_working id .interfaceMethod index

theorem resolveField_working (id : ClassId) (index : UInt16) : Working (resolveField id index) :=
  resolve_working id .field index

end JavaMachine.World
