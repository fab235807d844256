import JavaMachine.Proofs.Agreement
import JavaMachine.Proofs.Faults

/-!
# Failures with a reason

Files are missing or damaged, and what they declare does not fit together: such errors are ordinary.
Of the others each has its reason. A definition is circular where it is begun once more while it is
under way, and a member is declared twice where the tables of a class refuse it. Linking passes on
the errors of its requests: for the superclass or an interface that the class file names, or for the
class of strings where a static field starts with a string. A definition passes on those of linking.
-/

namespace JavaMachine

/-- A static field of the class starts with a canonical string. -/
def ClassFile.StartsWithString (file : ClassFile) (name : String) : Prop :=
  ∃ member ∈ file.fields, ∃ owner field text, Field.ofMember file owner name member = .ok field ∧
    field.isStatic ∧ field.firstValue? file = .ok (.string text)

/-- Linking the class by the file with the loader asks a loader for a name. -/
inductive ClassFile.Asks (file : ClassFile) (name : String) (loader : LoaderId) :
    LoaderId → String → Prop where
  | superclass {above : String} (nonzero : file.superClass ≠ 0)
      (named : file.className? file.superClass = some above) : Asks file name loader loader above
  | interface {index : UInt16} {above : String} (declared : index ∈ file.interfaces)
      (named : file.className? index = some above) : Asks file name loader loader above
  | string (starts : file.StartsWithString name) :
      Asks file name loader .bootstrap WellKnown.stringClass

namespace World

variable {α β : Type} {world later : World} {load : Load} {loader : LoaderId} {name : String}
variable {file : ClassFile} {id : ClassId} {reason : Error → Prop}

/-- There is a reason for the error with which the computation fails, if it fails. -/
def Warrants (world : World) (reason : Error → Prop) (action : WorldM α) : Prop :=
  ∀ error, (runFrom world action).1 = .error error → reason error

namespace Warrants

variable {action : WorldM α} {next : α → WorldM β}

theorem pure (result : α) : world.Warrants reason (pure result : WorldM α) :=
  fun _ same => by cases same

theorem throw {error : Error} (holds : reason error) :
    world.Warrants reason (throw error : WorldM α) := by
  intro thrown same
  cases same
  exact holds

theorem bindGet {next : World → WorldM β} (rest : world.Warrants reason (next world)) :
    world.Warrants reason (get >>= next) := rest

theorem bind (first : world.Warrants reason action)
    (rest : ∀ result later, runFrom world action = (.ok result, later) →
      later.Warrants reason (next result)) :
    world.Warrants reason (action >>= next) := by
  intro error fails
  rcases ends : runFrom world action with ⟨failure | result, later⟩
  · rw [runFrom_bind_error ends] at fails
    cases fails
    exact first _ (by rw [ends])
  · rw [runFrom_bind_ok ends] at fails
    exact rest result later ends error fails

theorem bindLinking {outcome : Except LinkageError α}
    (first : ∀ cause, outcome = .error cause → reason (.linkage cause))
    (rest : ∀ result, outcome = .ok result → world.Warrants reason (next result)) :
    world.Warrants reason (WorldM.ofLinking outcome >>= next) := by
  cases outcome with
  | error cause => exact .bind (.throw (first cause rfl)) fun _ _ ends => by cases ends
  | ok result => exact rest result rfl

/-- A handler that passes the error on changes no reason. -/
theorem rethrow {handler : Error → WorldM α} (tried : world.Warrants reason action)
    (passes : ∀ error later, (runFrom later (handler error)).1 = .error error) :
    world.Warrants reason (tryCatch action handler) := by
  intro error fails
  rcases ends : runFrom world action with ⟨failure | result, later⟩
  · rw [runFrom_tryCatch_error ends, passes] at fails
    exact tried error (by rw [ends]; exact fails)
  · rw [runFrom_tryCatch_ok ends] at fails
    cases fails

end Warrants

/-- There is a reason for every ordinary error. -/
def AllowsOrdinary (reason : Error → Prop) : Prop :=
  ∀ error : Error, error.IsOrdinary → reason error

namespace AllowsOrdinary

variable (allows : AllowsOrdinary reason)
include allows

theorem internal (cause : InternalError) :
    world.Warrants reason (throw (Error.internal cause) : WorldM α) :=
  .throw (allows _ trivial)

theorem linkage {cause : LinkageError} (isOrdinary : cause.IsOrdinary) :
    world.Warrants reason (throw (Error.linkage cause) : WorldM α) :=
  .throw (allows _ isOrdinary)

theorem bindLinking {outcome : Except LinkageError α} {next : α → WorldM β}
    (first : FailsOrdinarily outcome)
    (rest : ∀ result, outcome = .ok result → world.Warrants reason (next result)) :
    world.Warrants reason (WorldM.ofLinking outcome >>= next) :=
  .bindLinking (fun cause fails => allows _ (first cause fails)) rest

end AllowsOrdinary

/-! ### Mirrors -/

section Mirrors

variable (allows : AllowsOrdinary reason)
include allows

theorem advance_warrants (id : ClassId) (next : ClassState) :
    world.Warrants reason (advance id next) := by
  apply Warrants.bindGet
  dsimp only
  split
  · exact fun _ same => by cases same
  · exact allows.internal _

theorem allocateInstance_warrants (id : ClassId) (attachment : Attachment) :
    world.Warrants reason (allocateInstance id attachment) := by
  apply Warrants.bindGet
  dsimp only
  split
  · exact allows.internal _
  · split
    · exact allows.internal _
    · exact fun _ same => by cases same

theorem installMirror_warrants (mirrorClass target : ClassId) :
    world.Warrants reason (installMirror mirrorClass target) :=
  .bind (allocateInstance_warrants allows _ _) fun _ _ _ _ same => by cases same

theorem ensureMirror_warrants (id : ClassId) : world.Warrants reason (ensureMirror id) := by
  have missing (mirrorClass : ClassId) (targets : List ClassId) {world : World} :
      world.Warrants reason (installMissingMirrors mirrorClass targets) := by
    induction targets generalizing world with
    | nil => exact .pure ()
    | cons target rest inductionHypothesis =>
        apply Warrants.bindGet
        split
        · exact .bind (installMirror_warrants allows _ _) fun _ _ _ => inductionHypothesis
        · exact inductionHypothesis
  apply Warrants.bindGet
  dsimp only
  split
  · split
    · exact .bind (installMirror_warrants allows _ _) fun _ _ _ => .bindGet (missing _ _)
    · split
      · exact installMirror_warrants allows _ _
      · exact .pure ()
  · exact .pure ()

end Mirrors

/-! ### Linking -/

/-- However the world evolves, there is a reason for the error with which a request fails. -/
def Vouches (world : World) (reason : Error → Prop) (load : Load) (loader : LoaderId)
    (name : String) : Prop :=
  ∀ later, world.Evolves later → later.Warrants reason (load loader name)

theorem Vouches.mono (vouches : world.Vouches reason load loader name)
    (evolves : world.Evolves later) : later.Vouches reason load loader name :=
  fun final evolvesOn => vouches final (evolves.trans evolvesOn)

theorem Vouches.required (vouches : world.Vouches reason load loader name)
    (allows : AllowsOrdinary reason) (sound : world.Sound) :
    world.Warrants reason (load.required loader name) := by
  refine .bind (vouches world (.refl sound)) fun found later _ => ?_
  cases found with
  | some id => exact .pure id
  | none => exact allows.linkage trivial

/-- Supertypes that have been found are linked, and the loader leads to them. -/
structure FoundAbove (loader : LoaderId) (supertypes : List ClassId) (later : World) : Prop where
  linked : ∀ supertype ∈ supertypes, (later.type supertype).linkage?.isSome
  leads : ∀ supertype ∈ supertypes, ∃ name, later.LeadsTo loader name supertype

section Found

variable {above : World} {superclass : Option ClassId} {interfaces : List ClassId}
variable {allInterfaces : Table String ClassId}
variable (superFound : SuperclassFound loader name file superclass above)
variable (found : InterfacesFound loader file file.interfaces
  (above.inheritedInterfaces superclass) (interfaces, allInterfaces) later)
variable (evolves : above.Evolves later)
include superFound found evolves

theorem foundAbove_of_found (sound : above.Sound) :
    FoundAbove loader (superclass.toList ++ interfaces) later := by
  constructor
  · intro supertype membership
    rcases List.mem_append.1 membership with isSuperclass | isInterface
    · have linked := superFound.linked supertype (Option.mem_toList.1 isSuperclass)
      rwa [evolves.keepsUsable.linkage?_eq linked]
    · exact found.linked supertype isInterface
  · intro supertype membership
    rcases List.mem_append.1 membership with isSuperclass | isInterface
    · obtain ⟨superName, _, leads⟩ := superFound.leads supertype (Option.mem_toList.1 isSuperclass)
      exact ⟨superName, leads.mono sound evolves.retains⟩
    · obtain ⟨interfaceName, _, leads⟩ := found.leads supertype isInterface
      exact ⟨interfaceName, leads⟩

/-- The layout from which linking starts, read off the classes. -/
theorem inherit_of_found : FieldLayout.inherit
    (((superclass.bind fun superclass => (above.type superclass).linkage?).map
      fun linkage => linkage.fields.slots).getD [])
    ((interfaces.filterMap fun interface => (later.type interface).linkage?).map
      fun linkage => linkage.fields.slots) = later.layoutAbove superclass interfaces := by
  let linkage : Linkage := { (default : Linkage) with superclass, interfaces, allInterfaces }
  have superFound : SuperclassFound loader name file linkage.superclass above := superFound
  have found : InterfacesFound loader file file.interfaces
    (above.inheritedInterfaces linkage.superclass) (linkage.interfaces, linkage.allInterfaces)
      later := found
  obtain ⟨superSlots, interfaceSlots⟩ := slots_of_found superFound found evolves
  exact congrArg₂ FieldLayout.inherit superSlots interfaceSlots

end Found

/-- There is a reason where the tables of the class refuse a member: a method, or a field that is
added to the layout of supertypes that have been found. -/
structure TablesWarrant (world : World) (reason : Error → Prop) (id : ClassId) (loader : LoaderId)
    (name : String) (file : ClassFile) : Prop where
  methods : ∀ inherited interfaces key,
    MethodTables.build file id name inherited interfaces = .error (.duplicateMethod name key) →
      reason (.linkage (.duplicateMethod name key))
  fields : ∀ later superclass interfaces key, world.Evolves later →
    FoundAbove loader (superclass.toList ++ interfaces) later →
      FieldLayout.addAll file id name file.fields (later.layoutAbove superclass interfaces) =
        .error (.duplicateField name key) → reason (.linkage (.duplicateField name key))

section Linking

variable (allows : AllowsOrdinary reason)
include allows

theorem intern_warrants (vouches : world.Vouches reason load .bootstrap WellKnown.stringClass)
    (sound : world.Sound) (text : String) : world.Warrants reason (load.intern text) := by
  apply Warrants.bindGet
  split
  · exact .pure _
  · refine .bind (vouches.required allows sound) fun stringClass later _ => ?_
    exact .bind (allocateInstance_warrants allows _ _) fun _ _ _ _ same => by cases same

theorem linkSuperclass_warrants (sound : world.Sound)
    (vouches : ∀ above, file.superClass ≠ 0 → file.className? file.superClass = some above →
      world.Vouches reason load loader above) :
    world.Warrants reason (linkSuperclass load loader name file) := by
  unfold linkSuperclass
  dsimp only
  split
  · split
    · exact .pure none
    · exact allows.linkage trivial
  next nonzero =>
    split
    · exact allows.linkage trivial
    · refine allows.bindLinking (file.requireClassName_ordinary _) fun superName required => ?_
      have vouches := vouches superName nonzero (className?_of_requireClassName required)
      refine .bind (vouches.required allows sound) fun id later _ => ?_
      apply Warrants.bindGet
      split
      · exact allows.linkage trivial
      · split
        · exact allows.linkage trivial
        · split
          · exact allows.linkage trivial
          · exact .pure _

theorem initialValue_warrants {field : Field} (sound : world.Sound)
    (vouches : ∀ text, field.firstValue? file = .ok (.string text) →
      world.Vouches reason load .bootstrap WellKnown.stringClass) :
    world.Warrants reason (initialValue load file field) := by
  rw [initialValue_eq]
  refine allows.bindLinking (field.firstValue?_ordinary file) fun first known => ?_
  cases first with
  | plain value => exact .pure value
  | string text =>
      exact .bind (intern_warrants allows (vouches text known) sound text) fun _ _ _ => .pure _

variable (finds : load.Finds)
include finds

theorem linkInterfaces_warrants {indices : List UInt16} (sound : world.Sound)
    (vouches : ∀ index ∈ indices, ∀ above, file.className? index = some above →
      world.Vouches reason load loader above) (known : Table String ClassId) :
    world.Warrants reason (linkInterfaces load loader name file indices known) := by
  induction indices generalizing world known with
  | nil => exact .pure _
  | cons index rest inductionHypothesis =>
      refine allows.bindLinking (file.requireClassName_ordinary _) fun interfaceName required => ?_
      have first := vouches index List.mem_cons_self interfaceName
        (className?_of_requireClassName required)
      refine .bind (first.required allows sound) fun id later ends => ?_
      have evolves := ((Load.required_ends finds loader interfaceName sound).ok ends).1
      apply Warrants.bindGet
      dsimp only
      split
      · exact allows.linkage trivial
      · split
        · exact allows.linkage trivial
        · refine .bind (inductionHypothesis evolves.sound (fun index among above named => ?_) _)
            fun _ _ _ => .pure _
          exact (vouches index (List.mem_cons_of_mem _ among) above named).mono evolves

/-- Fields are refused where they are refused without their first values. -/
theorem linkFields_warrants {owner : ClassId} {members : List (Member FieldFlags)}
    (sound : world.Sound)
    (vouches : ∀ member ∈ members, ∀ field text, Field.ofMember file owner name member = .ok field →
      field.isStatic → field.firstValue? file = .ok (.string text) →
        world.Vouches reason load .bootstrap WellKnown.stringClass)
    (layout : FieldLayout) (static : Array Value)
    (adds : ∀ cause, FieldLayout.addAll file owner name members layout = .error cause →
      reason (.linkage cause)) :
    world.Warrants reason (linkFields load file owner name members layout static) := by
  induction members generalizing world layout static with
  | nil => exact .pure _
  | cons member rest inductionHypothesis =>
      have others := fun member among => vouches member (List.mem_cons_of_mem _ among)
      refine .bindLinking (fun cause unread => adds cause ?_) fun field read => ?_
      · rw [FieldLayout.addAll, unread]
        rfl
      refine .bindLinking (fun cause refused => adds cause ?_) fun extended added => ?_
      · simp only [FieldLayout.addAll, read, refused, bind, Except.bind]
      rw [FieldLayout.addAll_cons read added] at adds
      split
      next isStatic =>
        have first := initialValue_warrants allows sound fun text known =>
          vouches member List.mem_cons_self field text read isStatic known
        refine .bind first fun value later ends => ?_
        have evolves := ((initialValue_ends finds file field sound).ok ends).1
        refine inductionHypothesis evolves.sound (fun member among field text read isStatic known =>
          ?_) extended (static.push value) adds
        exact (others member among field text read isStatic known).mono evolves
      next => exact inductionHypothesis sound others extended static adds

theorem linkDeclared_warrants (sound : world.Sound)
    (vouches : ∀ other above, file.Asks name loader other above →
      world.Vouches reason load other above)
    (tables : world.TablesWarrant reason id loader name file) :
    world.Warrants reason (linkDeclared load id loader name file) := by
  refine .bind (linkSuperclass_warrants allows sound fun above nonzero named =>
    vouches loader above (.superclass nonzero named)) fun superclass above ends => ?_
  obtain ⟨evolves, superFound⟩ := (linkSuperclass_ends finds loader name file sound).ok ends
  apply Warrants.bindGet
  refine .bind (linkInterfaces_warrants allows finds evolves.sound (fun index among above named =>
    ?_) _) fun found beside ends => ?_
  · exact (vouches loader above (.interface among named)).mono evolves
  obtain ⟨interfaces, allInterfaces⟩ := found
  obtain ⟨evolvesOn, interfacesFound⟩ :=
    (linkInterfaces_ends finds loader name file _ _ evolves.sound).ok ends
  apply Warrants.bindGet
  refine .bindLinking (fun cause fails => ?_) fun methods _ => ?_
  · rcases MethodTables.build_error fails with isOrdinary | ⟨key, rfl⟩
    · exact allows _ isOrdinary
    · exact tables.methods _ _ key fails
  refine .bind (linkFields_warrants allows finds evolvesOn.sound (fun member among field text read
    isStatic known => ?_) _ _ fun cause fails => ?_) fun _ _ _ => ?_
  · exact (vouches _ _ (.string ⟨member, among, id, field, text, read, isStatic, known⟩)).mono
      (evolves.trans evolvesOn)
  · rcases FieldLayout.addAll_error fails with isOrdinary | ⟨key, rfl⟩
    · exact allows _ isOrdinary
    · have foundAbove : FoundAbove loader (superclass.toList ++ interfaces) beside :=
        foundAbove_of_found superFound interfacesFound evolvesOn evolves.sound
      rw [inherit_of_found superFound interfacesFound evolvesOn] at fails
      exact tables.fields beside superclass interfaces key (evolves.trans evolvesOn) foundAbove
        fails
  · exact allows.bindLinking (ClassAttributes.ofFile_ordinary file) fun _ _ => .pure _

omit finds in
theorem linkWith_warrants {body : DeclaredClass}
    (declared : (world.type id).declared? = some body)
    (links : world.Warrants reason
      (linkDeclared load id (world.type id).loader (world.type id).name body.file)) :
    world.Warrants reason (linkWith load id) := by
  apply Warrants.bindGet
  dsimp only
  rw [declared]
  dsimp only
  split
  · exact allows.internal _
  · refine .rethrow (.bind links fun computed later _ => ?_) fun _ _ => rfl
    exact .bind (fun _ same => by cases same) fun _ _ _ => advance_warrants allows _ _

/-! ### Definitions -/

omit finds in
theorem defineClass_warrants
    (links : ∀ type, Class.allocate file loader = .ok type → type.name = name →
      (world.addType type).2.Warrants reason (linkWith load world.nextId)) :
    world.Warrants reason (defineClass load loader name file) := by
  refine allows.bindLinking (Class.allocate_ordinary file loader) fun type allocated => ?_
  dsimp only
  split
  · exact .bind (allows.linkage trivial) fun _ _ ends => by cases ends
  next named =>
    have linked := links type allocated (not_not.1 named)
    intro error fails
    rw [runFrom_modifyGet_bind] at fails
    exact Warrants.bind linked
      (fun _ _ _ => .bind (ensureMirror_warrants allows _) fun _ _ _ => .pure _) error fails

omit finds in
theorem defineFrom_warrants {sources : List Source}
    (defines : ∀ file, Source.findFirst? sources name = .ok (some file) →
      world.Warrants reason (defineClass load loader name file)) :
    world.Warrants reason (defineFrom load loader name sources) := by
  induction sources with
  | nil => exact .pure none
  | cons source rest inductionHypothesis =>
      refine allows.bindLinking (source.find?_ordinary name) fun found known => ?_
      have first := Source.findFirst?_cons known rest
      cases found with
      | some file => exact .bind (defines file first) fun _ _ _ => .pure _
      | none => exact inductionHypothesis fun file found => defines file (first.trans found)

end Linking

/-- A name is not settled where its definition is under way, or where it fails. -/
theorem getOrDefine_warrants {define : WorldM (Option ClassId)}
    (circular : world.Defining loader name → reason (.linkage (.circularity name)))
    (defines : world.settled? loader name = none → ¬ world.Defining loader name →
      (world.starting loader name).Warrants reason define) :
    world.Warrants reason (getOrDefine loader name define) := by
  cases undecided : world.settled? loader name with
  | some known =>
      intro error fails
      rw [runFrom_getOrDefine undecided] at fails
      cases fails
  | none =>
      by_cases underWay : world.Defining loader name
      · intro error fails
        rw [runFrom_getOrDefine_circular undecided underWay] at fails
        cases fails
        exact circular underWay
      · intro error fails
        rw [runFrom_getOrDefine_open undecided underWay] at fails
        refine defines undecided underWay error ?_
        rcases ends : runFrom (world.starting loader name) define with ⟨thrown | found, defined⟩
        all_goals rw [ends] at fails
        · exact fails
        · cases fails

/-! ### Array classes -/

/-- The names of what array classes inherit. -/
def inheritedNames : List String :=
  [WellKnown.objectClass, WellKnown.cloneableClass, WellKnown.serializableClass]

theorem head?_of_mem_inheritedNames : ∀ above ∈ inheritedNames, above.toList.head? ≠ some '[' := by
  decide

section Arrays

variable (allows : AllowsOrdinary reason)
include allows

theorem arraySupertypes_warrants (finds : load.FindsPlain) (sound : world.Sound)
    (vouches : ∀ above ∈ inheritedNames, world.Vouches reason load .bootstrap above) :
    world.Warrants reason (arraySupertypes load) := by
  have root := vouches WellKnown.objectClass (by decide)
  refine .bind (root.required allows sound) fun superclass first ends => ?_
  have evolves := ((finds.required_ends .bootstrap (by decide) sound).ok ends).1
  refine .bind (vouches WellKnown.cloneableClass (by decide) first evolves)
    fun cloneable second ends => ?_
  have evolvesOn := ((finds .bootstrap _ (by decide) first evolves.sound).ends.ok ends).1
  exact .bind (vouches WellKnown.serializableClass (by decide) second (evolves.trans evolvesOn))
    fun _ _ _ => .pure _

/-- An array class comes in once what it inherits has been found. -/
theorem arrayClass_warrants (finds : load.FindsPlain) (sound : world.Sound)
    (circular : world.Defining loader name → reason (.linkage (.circularity name)))
    (vouches : ∀ above ∈ inheritedNames,
      (world.starting loader name).Vouches reason load .bootstrap above)
    (flags : ClassFlags) (kind : ArraySupertypes → ClassKind) :
    world.Warrants reason (arrayClass loader name do
      let supertypes ← arraySupertypes load
      addArrayClass name flags loader (kind supertypes)) := by
  refine .bind (getOrDefine_warrants circular fun _ _ => ?_) fun found _ _ => ?_
  · have inherits := arraySupertypes_warrants allows finds (sound.starting loader name) vouches
    refine .bind inherits fun supertypes _ _ => .bind (fun _ same => by cases same) fun _ _ _ => ?_
    exact .bind (ensureMirror_warrants allows _) fun _ _ _ => .pure _
  · cases found with
    | some id => exact .pure id
    | none => exact allows.internal _

end Arrays

end World
end JavaMachine
