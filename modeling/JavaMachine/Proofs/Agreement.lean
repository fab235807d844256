import JavaMachine.Proofs.Loading

/-!
# Ways of loading that agree

Two ways of loading that do the same in all worlds of some kind make linking, defining and loading
arrays do the same in these worlds, as long as worlds that evolve stay of that kind. So a difference
between them matters only if loading leads to a world of another kind.
-/

namespace JavaMachine

/-- From all states in which `holds`, both computations end in the same way. -/
def Agree {σ α : Type} (holds : σ → Prop) (one other : ExceptT Error (StateM σ) α) : Prop :=
  ∀ start, holds start → runFrom start one = runFrom start other

section Running

variable {σ α β : Type} {start : σ} {one other : ExceptT Error (StateM σ) α}

theorem runFrom_bind_congr {next nextToo : α → ExceptT Error (StateM σ) β}
    (first : runFrom start one = runFrom start other)
    (rest : ∀ result later, runFrom start other = (.ok result, later) →
      runFrom later (next result) = runFrom later (nextToo result)) :
    runFrom start (one >>= next) = runFrom start (other >>= nextToo) := by
  rcases ends : runFrom start other with ⟨error | result, later⟩
  · rw [runFrom_bind_error ends, runFrom_bind_error (first.trans ends)]
  · rw [runFrom_bind_ok ends, runFrom_bind_ok (first.trans ends)]
    exact rest result later ends

theorem runFrom_tryCatch_congr {handler : Error → ExceptT Error (StateM σ) α}
    (tried : runFrom start one = runFrom start other) :
    runFrom start (tryCatch one handler) = runFrom start (tryCatch other handler) := by
  rcases ends : runFrom start other with ⟨error | result, later⟩
  · rw [runFrom_tryCatch_error ends, runFrom_tryCatch_error (tried.trans ends)]
  · rw [runFrom_tryCatch_ok ends, runFrom_tryCatch_ok (tried.trans ends)]

end Running

namespace World

/-- All worlds of a kind are sound, and those into which they evolve are of that kind as well. -/
structure Perpetual (holds : World → Prop) : Prop where
  sound : ∀ {world}, holds world → world.Sound
  evolves : ∀ {world later}, holds world → world.Evolves later → holds later

end World

namespace Agree

variable {α β : Type} {holds : World → Prop} {one other : WorldM α}

theorem refl (action : WorldM α) : Agree holds action action :=
  fun _ _ => rfl

theorem bind {next nextToo : α → WorldM β} (perpetual : World.Perpetual holds)
    (first : Agree holds one other) (evolving : Evolving other)
    (rest : ∀ result, Agree holds (next result) (nextToo result)) :
    Agree holds (one >>= next) (other >>= nextToo) := by
  intro start here
  refine runFrom_bind_congr (first start here) fun result later ends => ?_
  have evolves := (evolving start (perpetual.sound here)).leads
  rw [ends] at evolves
  exact rest result later (perpetual.evolves here evolves)

/-- What comes after is the same. -/
theorem before {next : α → WorldM β} (first : Agree holds one other) :
    Agree holds (one >>= next) (other >>= next) :=
  fun start here => runFrom_bind_congr (first start here) fun _ _ _ => rfl

/-- What comes before is the same. -/
theorem after {action : WorldM α} {next nextToo : α → WorldM β} (perpetual : World.Perpetual holds)
    (evolving : Evolving action) (rest : ∀ result, Agree holds (next result) (nextToo result)) :
    Agree holds (action >>= next) (action >>= nextToo) :=
  bind perpetual (refl action) evolving rest

theorem bindGet {next nextToo : World → WorldM β}
    (rest : ∀ world, Agree holds (next world) (nextToo world)) :
    Agree holds (get >>= next) (get >>= nextToo) :=
  fun start here => rest start start here

theorem tryCatch {handler : Error → WorldM α} (tried : Agree holds one other) :
    Agree holds (tryCatch one handler) (tryCatch other handler) :=
  fun start here => runFrom_tryCatch_congr (tried start here)

end Agree

namespace World

variable {holds : World → Prop} {one other : Load} {world : World} {loader : LoaderId}
variable {name : String}

/-! ### Linking -/

section Linking

variable (agree : ∀ loader name, Agree holds (one loader name) (other loader name))
include agree

theorem required_agree (loader : LoaderId) (name : String) :
    Agree holds (one.required loader name) (other.required loader name) :=
  .before (agree loader name)

theorem intern_agree (text : String) : Agree holds (one.intern text) (other.intern text) := by
  apply Agree.bindGet
  intro world
  cases world.strings.find? text with
  | some known => exact .refl _
  | none => exact .before (required_agree agree _ _)

variable (perpetual : Perpetual holds)
include perpetual

theorem linkSuperclass_agree (loader : LoaderId) (name : String) (file : ClassFile) :
    Agree holds (linkSuperclass one loader name file) (linkSuperclass other loader name file) := by
  unfold linkSuperclass
  dsimp only
  split
  · exact .refl _
  · split
    · exact .refl _
    · refine .after perpetual (Evolving.ofLinking _) fun superName => ?_
      exact .before (required_agree agree loader superName)

theorem initialValue_agree (file : ClassFile) (field : Field) :
    Agree holds (initialValue one file field) (initialValue other file field) := by
  rw [initialValue_eq, initialValue_eq]
  refine .after perpetual (Evolving.ofLinking _) fun first => ?_
  cases first with
  | plain value => exact .refl _
  | string text => exact .before (intern_agree agree text)

variable (finds : other.Finds)
include finds

theorem linkInterfaces_agree (loader : LoaderId) (name : String) (file : ClassFile)
    (indices : List UInt16) (known : Table String ClassId) :
    Agree holds (linkInterfaces one loader name file indices known)
      (linkInterfaces other loader name file indices known) := by
  induction indices generalizing known with
  | nil => exact .refl _
  | cons index rest inductionHypothesis =>
      refine .after perpetual (Evolving.ofLinking _) fun interfaceName => ?_
      refine .bind perpetual (required_agree agree loader interfaceName)
        (Evolving.of_ends fun _ => Load.required_ends finds loader interfaceName) fun id => ?_
      apply Agree.bindGet
      intro world
      dsimp only
      split
      · exact .refl _
      · split
        · exact .refl _
        · exact .before (inductionHypothesis _)

theorem linkFields_agree (file : ClassFile) (owner : ClassId) (name : String)
    (members : List (Member FieldFlags)) (layout : FieldLayout) (static : Array Value) :
    Agree holds (linkFields one file owner name members layout static)
      (linkFields other file owner name members layout static) := by
  induction members generalizing layout static with
  | nil => exact .refl _
  | cons member rest inductionHypothesis =>
      refine .after perpetual (Evolving.ofLinking _) fun field => ?_
      refine .after perpetual (Evolving.ofLinking _) fun extended => ?_
      split
      · refine .bind perpetual (initialValue_agree agree perpetual file field) ?_ fun value =>
          inductionHypothesis extended (static.push value)
        exact Evolving.of_ends fun _ => initialValue_ends finds file field
      · exact inductionHypothesis extended static

theorem linkDeclared_agree (id : ClassId) (loader : LoaderId) (name : String) (file : ClassFile) :
    Agree holds (linkDeclared one id loader name file)
      (linkDeclared other id loader name file) := by
  refine .bind perpetual (linkSuperclass_agree agree perpetual loader name file)
    (Evolving.of_ends fun _ => linkSuperclass_ends finds loader name file) fun superclass => ?_
  apply Agree.bindGet
  intro world
  refine .bind perpetual (linkInterfaces_agree agree perpetual finds loader name file _ _)
    (Evolving.of_ends fun _ => linkInterfaces_ends finds loader name file _ _) fun found => ?_
  apply Agree.bindGet
  intro later
  refine .after perpetual (Evolving.ofLinking _) fun methods => ?_
  exact .before (linkFields_agree agree perpetual finds file id name file.fields _ _)

theorem linkWith_agree (id : ClassId) : Agree holds (linkWith one id) (linkWith other id) := by
  apply Agree.bindGet
  intro world
  dsimp only
  cases (world.type id).declared? with
  | none => exact .refl _
  | some body =>
      dsimp only
      split
      · exact .refl _
      · exact .tryCatch (.before (linkDeclared_agree agree perpetual finds id _ _ body.file))

end Linking

/-! ### Definitions -/

theorem eq_of_runFrom_ofLinking {α : Type} {outcome : Except LinkageError α} {result : α}
    {later : World} (ends : runFrom world (WorldM.ofLinking outcome) = (.ok result, later)) :
    outcome = .ok result ∧ later = world := by
  cases outcome with
  | error cause => cases ends
  | ok found =>
      cases ends
      exact ⟨rfl, rfl⟩

/-- Definitions differ only where linking the new class does. -/
theorem runFrom_defineClass_congr {file : ClassFile}
    (linked : ∀ type, Class.allocate file loader = .ok type → type.name = name →
      runFrom (world.addType type).2 (linkWith one world.nextId) =
        runFrom (world.addType type).2 (linkWith other world.nextId)) :
    runFrom world (defineClass one loader name file) =
      runFrom world (defineClass other loader name file) := by
  refine runFrom_bind_congr rfl fun type later ends => ?_
  obtain ⟨allocated, rfl⟩ := eq_of_runFrom_ofLinking ends
  dsimp only
  split
  · exact runFrom_bind_congr rfl fun _ _ ends => by cases ends
  next named =>
    have linked : runFrom (later.addType type).2 (linkWith one (later.addType type).1) =
        runFrom (later.addType type).2 (linkWith other (later.addType type).1) :=
      linked type allocated (not_not.1 named)
    rw [runFrom_modifyGet_bind, runFrom_modifyGet_bind]
    exact runFrom_bind_congr linked fun _ _ _ => rfl

theorem runFrom_defineFrom_congr {sources : List Source}
    (linked : ∀ file type, Source.findFirst? sources name = .ok (some file) →
      Class.allocate file loader = .ok type → type.name = name →
        runFrom (world.addType type).2 (linkWith one world.nextId) =
          runFrom (world.addType type).2 (linkWith other world.nextId)) :
    runFrom world (defineFrom one loader name sources) =
      runFrom world (defineFrom other loader name sources) := by
  induction sources with
  | nil => rfl
  | cons source rest inductionHypothesis =>
      refine runFrom_bind_congr rfl fun found later ends => ?_
      obtain ⟨asked, rfl⟩ := eq_of_runFrom_ofLinking ends
      have first := Source.findFirst?_cons asked rest
      cases found with
      | some file =>
          have defined := runFrom_defineClass_congr fun type => linked file type first
          exact runFrom_bind_congr defined fun _ _ _ => rfl
      | none =>
          exact inductionHypothesis fun file type found => linked file type (first.trans found)

/-- Names differ only where their definitions do. -/
theorem runFrom_getOrDefine_congr {define defineToo : WorldM (Option ClassId)}
    (defined : ¬ world.Defining loader name →
      runFrom (world.starting loader name) define =
        runFrom (world.starting loader name) defineToo) :
    runFrom world (getOrDefine loader name define) =
      runFrom world (getOrDefine loader name defineToo) := by
  rw [getOrDefine, getOrDefine, runFrom_bind_ok runFrom_get, runFrom_bind_ok runFrom_get]
  dsimp only
  split
  · rfl
  · split
    · rfl
    next idle =>
      rw [runFrom_bind_ok runFrom_modify, runFrom_bind_ok runFrom_modify]
      exact runFrom_bind_congr (runFrom_tryCatch_congr (defined idle)) fun _ _ _ => rfl

/-! ### Array classes -/

section Arrays

variable (perpetual : Perpetual holds)
  (starting : ∀ {world loader name}, holds world → holds (world.starting loader name))
  (finds : other.FindsPlain)
  (agree : ∀ loader name, name.toList.head? ≠ some '[' →
    Agree holds (one loader name) (other loader name))
include perpetual finds agree

theorem arraySupertypes_agree : Agree holds (arraySupertypes one) (arraySupertypes other) := by
  have evolving (loader : LoaderId) {name : String} (plain : name.toList.head? ≠ some '[') :
      Evolving (other loader name) :=
    fun world sound => (finds loader name plain world sound).ends.mono fun _ _ _ => trivial
  refine .bind perpetual (.before (agree _ _ (by decide))) ?_ fun superclass => ?_
  · exact Evolving.of_ends fun _ => finds.required_ends .bootstrap (by decide)
  refine .bind perpetual (agree _ _ (by decide)) (evolving _ (by decide)) fun cloneable => ?_
  exact .before (agree _ _ (by decide))

include starting

/-- The classes of arrays differ only in what they inherit. -/
theorem arrayClass_agree (loader : LoaderId) (name : String)
    (add : ArraySupertypes → WorldM (Option ClassId)) :
    Agree holds (arrayClass loader name (arraySupertypes one >>= add))
      (arrayClass loader name (arraySupertypes other >>= add)) := by
  refine .before fun world here => runFrom_getOrDefine_congr fun _ => ?_
  exact Agree.before (arraySupertypes_agree perpetual finds agree) _ (starting here)

theorem loadArray_agree {components componentsToo : String → WorldM (Option ClassId)}
    (below : ∀ key, key.length < name.length →
      Agree holds (components key) (componentsToo key) ∧ Evolving (componentsToo key)) :
    Agree holds (loadArray one components name) (loadArray other componentsToo name) := by
  unfold loadArray
  cases written : FieldType.ofDescriptor? name with
  | none => exact .refl _
  | some described =>
      cases described with
      | primitive element => exact .refl _
      | object className => exact .refl _
      | array type =>
          have below := below type.loadName (FieldType.length_loadName_lt written)
          cases type with
          | primitive element =>
              exact .before (arrayClass_agree perpetual starting finds agree _ _ _)
          | object | array =>
              refine .bind perpetual below.1 below.2 fun found => ?_
              cases found with
              | none => exact .refl _
              | some component =>
                  refine .before (.bindGet fun world => ?_)
                  exact arrayClass_agree perpetual starting finds agree _ _ _

end Arrays

/-! ### Names -/

theorem runFrom_answering_congr {request requestToo : WorldM (Option ClassId)}
    (same : runFrom world request = runFrom world requestToo) :
    runFrom world (answering loader name request) =
      runFrom world (answering loader name requestToo) := by
  rw [runFrom_answering, runFrom_answering, same]

section Names

variable {define defineToo : Load} (perpetual : Perpetual holds)
  (defines : Defines defineToo)
  (agree : ∀ loader name world, holds world → ¬ world.Defining loader name →
    runFrom (world.starting loader name) (define loader name) =
      runFrom (world.starting loader name) (defineToo loader name))
include perpetual defines agree

theorem runFrom_loadAlong_congr (plain : name.toList.head? ≠ some '[') (loaders : List LoaderId)
    (here : holds world) (asked : world.AskedTogether loaders) :
    runFrom world (loadAlong define loaders name) =
      runFrom world (loadAlong defineToo loaders name) := by
  induction loaders generalizing world with
  | nil => rfl
  | cons loader parents inductionHypothesis =>
      have sound := perpetual.sound here
      have together := asked.tail sound
      rw [loadAlong, loadAlong]
      apply runFrom_answering_congr
      rw [runFrom_bind_ok runFrom_get, runFrom_bind_ok runFrom_get]
      split
      · rfl
      · refine runFrom_bind_congr (inductionHypothesis here together) fun found later ends => ?_
        cases found with
        | some id => rfl
        | none =>
            have evolves := (loadAlong_ends defines plain parents sound together).leads
            rw [ends] at evolves
            exact runFrom_getOrDefine_congr
              (agree loader name later (perpetual.evolves here evolves))

theorem loadNamed_agree (loader : LoaderId) (plain : name.toList.head? ≠ some '[') :
    Agree holds (loadNamed define loader name) (loadNamed defineToo loader name) := by
  intro world here
  rw [loadNamed, loadNamed, runFrom_bind_ok runFrom_get, runFrom_bind_ok runFrom_get]
  exact runFrom_loadAlong_congr perpetual defines agree plain _ here (.inr ⟨loader, rfl⟩)

end Names
end World
end JavaMachine
