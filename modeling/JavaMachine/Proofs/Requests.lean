import JavaMachine.Proofs.Nesting
import JavaMachine.Proofs.Portrait
import JavaMachine.Proofs.Reasons

/-!
# Requests and those to which they lead

A request for a name leads to others: a definition asks for what the class file names, and an array
class for its component and for what array classes inherit. What holds where a request is made and
is handed on to those to which it leads holds wherever one is made on the way. So there is a reason
for the error with which loading fails if there is one at all places where requests fail of
themselves: where a definition is begun once more, and where the tables of a class refuse a member.
-/

namespace JavaMachine.World

variable {world later : World} {load define : Load} {loader definer : LoaderId}
variable {name key : String} {reason : Error → Prop} {holds : LoaderId → String → World → Prop}

/-- For a request to a loader the first one with a file for the name is to define the class. -/
structure Opens (world : World) (loader : LoaderId) (name : String) (definer : LoaderId)
    (file : ClassFile) : Prop where
  plain : name.toList.head? ≠ some '['
  among : definer ∈ world.delegates loader
  undecided : world.settled? definer name = none
  above : ∀ parent ∈ (world.loader definer).chain, world.settled? parent name = some none
  found : world.fileFor definer name = .ok (some file)

theorem Opens.topmost {file : ClassFile} (opens : world.Opens loader name definer file)
    (regular : world.Regular) : world.Topmost loader name definer file :=
  ⟨opens.among, opens.found, fun parent isAbove =>
    regular.noFile_of_settled fun _ => opens.above parent isAbove⟩

/-- The world in which a class comes in under a name whose definition has begun. -/
def opening (world : World) (definer : LoaderId) (name : String) (type : Class) : World :=
  ((world.starting definer name).addType type).2

theorem alike_opening (world : World) (definer : LoaderId) (name : String) (type : Class) :
    world.Alike (world.opening definer name type) :=
  (alike_starting world definer name).trans (Settles.addType _ type).alike

section Opening

variable {file : ClassFile} {type : Class} (opens : world.Opens loader name definer file)
  (sound : world.Sound) (allocated : Class.allocate file definer = .ok type)
include opens sound allocated

theorem Opens.sound_opening : (world.opening definer name type).Sound := by
  have present : (world.starting definer name).HasLoader definer :=
    (keepsLoaders_modifyDirectory world definer _).hasLoader_iff.2
      (hasLoader_of_fileFor opens.found)
  exact (sound.starting definer name).addAllocated present allocated

omit opens in
theorem regular_opening (regular : world.Regular) : (world.opening definer name type).Regular := by
  obtain ⟨kind, _⟩ := allocate_eq allocated
  exact (regular.starting sound definer name).addType (sound.starting definer name)
    (Class.linkage?_of_declared kind)

omit sound in
theorem Comparable.opening {model : World} (comparable : model.Comparable world) :
    model.Comparable (world.opening definer name type) :=
  (comparable.starting definer name).of_settles
    (opens.sound_opening comparable.soundToo allocated)
    (regular_opening comparable.soundToo allocated comparable.regularToo) (Settles.addType _ type)

end Opening

/-! ### Worlds with the same loaders -/

/-- Two comparable worlds with the same loaders. -/
structure Matching (world other : World) : Prop extends world.Comparable other where
  alike : world.Alike other

namespace Matching

theorem refl (sound : world.Sound) (regular : world.Regular) : world.Matching world :=
  ⟨.refl sound regular, .refl world⟩

variable {model : World} (matching : model.Matching world)
include matching

theorem mono (evolves : world.Evolves later) : model.Matching later :=
  ⟨matching.toComparable.mono evolves, matching.alike.trans evolves.settles.alike⟩

theorem starting (loader : LoaderId) (name : String) :
    model.Matching (world.starting loader name) :=
  ⟨matching.toComparable.starting loader name, matching.alike.trans (alike_starting ..)⟩

theorem opening {file : ClassFile} {type : Class} (opens : world.Opens loader name definer file)
    (allocated : Class.allocate file definer = .ok type) :
    model.Matching (world.opening definer name type) :=
  ⟨matching.toComparable.opening opens allocated, matching.alike.trans (alike_opening ..)⟩

end Matching

/-- An array class of the type can be made: the type is primitive, or its class has been found. -/
def Grounds (world : World) (loader : LoaderId) (type : FieldType) : Prop :=
  type.isPrimitive ∨ ∃ component, world.LeadsTo loader type.loadName component

/-- What holds of requests is handed on to those to which they lead, and there is a reason where
they fail of themselves. -/
structure Justifies (reason : Error → Prop) (holds : LoaderId → String → World → Prop) : Prop where
  ordinary : AllowsOrdinary reason
  sound : ∀ {loader name world}, holds loader name world → world.Sound
  mono : ∀ {loader name world later}, holds loader name world → world.Evolves later →
    holds loader name later
  circular : ∀ {loader name world definer}, holds loader name world →
    name.toList.head? ≠ some '[' → definer ∈ world.delegates loader →
      world.Defining definer name → reason (.linkage (.circularity name))
  circularArray : ∀ {loader name world type definer key}, holds loader name world →
    FieldType.ofDescriptor? name = some (.array type) → world.Grounds loader type →
      key.toList.head? = some '[' → world.Defining definer key →
        reason (.linkage (.circularity key))
  component : ∀ {loader name world type}, holds loader name world →
    FieldType.ofDescriptor? name = some (.array type) → ¬ type.isPrimitive →
      holds loader type.loadName world
  inherited : ∀ {loader name world type definer key above}, holds loader name world →
    FieldType.ofDescriptor? name = some (.array type) → world.Grounds loader type →
      key.toList.head? = some '[' → above ∈ inheritedNames →
        holds .bootstrap above (world.starting definer key)
  linking : ∀ {loader name world definer file type other above}, holds loader name world →
    world.Opens loader name definer file → Class.allocate file definer = .ok type →
      file.Asks name definer other above → holds other above (world.opening definer name type)
  tables : ∀ {loader name world definer file type}, holds loader name world →
    world.Opens loader name definer file → Class.allocate file definer = .ok type →
      (world.opening definer name type).TablesWarrant reason world.nextId definer name file

/-- There is a reason for the errors of requests where they are made. -/
def Accounts (reason : Error → Prop) (holds : LoaderId → String → World → Prop) (load : Load) :
    Prop :=
  ∀ loader name world, holds loader name world → world.Warrants reason (load loader name)

/-- There is a reason for the errors of definitions that requests lead to. -/
def AccountsDefined (reason : Error → Prop) (holds : LoaderId → String → World → Prop)
    (define : Load) : Prop :=
  ∀ loader name definer world, holds loader name world → name.toList.head? ≠ some '[' →
    definer ∈ world.delegates loader → world.settled? definer name = none →
      (∀ parent ∈ (world.loader definer).chain, world.settled? parent name = some none) →
        (world.starting definer name).Warrants reason (define definer name)

theorem answering_warrants {request : WorldM (Option ClassId)}
    (asked : world.Warrants reason request) :
    world.Warrants reason (answering loader name request) := by
  intro error fails
  rw [runFrom_answering] at fails
  exact asked error fails

namespace Justifies

variable (justifies : Justifies reason holds)
include justifies

theorem vouches (accounts : Accounts reason holds load) (here : holds loader name world) :
    world.Vouches reason load loader name :=
  fun later evolves => accounts loader name later (justifies.mono here evolves)

/-! ### Definitions -/

theorem accountsDefined (accounts : Accounts reason holds load) (finds : load.Finds) :
    AccountsDefined reason holds (fun definer className => do
      defineFrom load definer className ((← get).loader definer).sources) := by
  intro loader name definer world here plain among undecided above
  apply Warrants.bindGet
  refine defineFrom_warrants justifies.ordinary fun file found => ?_
  refine defineClass_warrants justifies.ordinary fun type allocated named => ?_
  have has : world.fileFor definer name = .ok (some file) := by
    rw [← (alike_starting world definer name).files]
    exact found
  have opens : world.Opens loader name definer file := ⟨plain, among, undecided, above, has⟩
  obtain ⟨kind, _, _, home, _⟩ := allocate_eq allocated
  have declared : (((world.starting definer name).addType type).2.type
      (world.starting definer name).nextId).declared? = some { file } := by
    rw [type_nextId_addType, Class.declared?, kind]
  refine linkWith_warrants justifies.ordinary declared ?_
  rw [type_nextId_addType, home, named]
  refine linkDeclared_warrants justifies.ordinary finds
    (opens.sound_opening (justifies.sound here) allocated) (fun other above asks => ?_)
    (justifies.tables here opens allocated)
  exact justifies.vouches accounts (justifies.linking here opens allocated asks)

/-! ### Names -/

section Names

variable (defines : Defines define) (accounts : AccountsDefined reason holds define)
include defines accounts

theorem loadAlong_warrants (here : holds loader name world) (plain : name.toList.head? ≠ some '[')
    (loaders : List LoaderId) (asked : world.AskedTogether loaders)
    (within : loaders ⊆ world.delegates loader) :
    world.Warrants reason (loadAlong define loaders name) := by
  induction loaders with
  | nil => exact .pure none
  | cons first parents inductionHypothesis =>
      obtain ⟨among, within⟩ := List.cons_subset.1 within
      have together := asked.tail (justifies.sound here)
      rw [loadAlong]
      apply answering_warrants
      apply Warrants.bindGet
      split
      · exact .pure _
      · refine .bind (inductionHypothesis together within) fun found later ends => ?_
        cases found with
        | some id => exact .pure _
        | none =>
            have along := loadAlong_ends defines plain parents (justifies.sound here) together
            obtain ⟨evolves, above⟩ := along.ok ends
            have here := justifies.mono here evolves
            rw [← evolves.settles.delegates_eq] at among
            refine getOrDefine_warrants (justifies.circular here plain among) fun undecided _ =>
              accounts loader name first later here plain among undecided fun parent isAbove => ?_
            have present := evolves.sound.hasLoader_of_chain isAbove
            rw [← (asked.mono evolves.settles.delegates_eq).chain_eq] at isAbove
            exact above.settled rfl parent isAbove present

theorem loadNamed_warrants (here : holds loader name world)
    (plain : name.toList.head? ≠ some '[') :
    world.Warrants reason (loadNamed define loader name) :=
  .bindGet (justifies.loadAlong_warrants defines accounts here plain _ (.inr ⟨loader, rfl⟩)
    (List.Subset.refl _))

/-! ### Array classes -/

theorem arrayClass_warrants {type : FieldType} (here : holds loader name world)
    (written : FieldType.ofDescriptor? name = some (.array type))
    (grounds : world.Grounds loader type) (bracket : key.toList.head? = some '[')
    (flags : ClassFlags) (kind : ArraySupertypes → ClassKind) :
    world.Warrants reason (arrayClass definer key do
      let supertypes ← arraySupertypes (loadNamed define)
      addArrayClass key flags definer (kind supertypes)) := by
  refine World.arrayClass_warrants justifies.ordinary (loadNamed_findsPlain defines)
    (justifies.sound here) (justifies.circularArray here written grounds bracket)
    (fun above among later evolves => ?_) flags kind
  have here := justifies.mono (justifies.inherited here written grounds bracket among) evolves
  exact justifies.loadNamed_warrants defines accounts here (head?_of_mem_inheritedNames above among)

theorem loadArray_warrants (here : holds loader name world)
    {components : String → WorldM (Option ClassId)}
    (finding : ∀ key, key.length < name.length → Finding world loader key (components key))
    (below : ∀ type, FieldType.ofDescriptor? name = some (.array type) → ¬ type.isPrimitive →
      world.Warrants reason (components type.loadName)) :
    world.Warrants reason (loadArray (loadNamed define) components name) := by
  unfold loadArray
  split
  · exact justifies.ordinary.linkage trivial
  next element written =>
    have bracket := (FieldType.isArrayName_ofPrimitives element).head?
    refine .bind ?_ fun _ _ _ => .pure _
    exact justifies.arrayClass_warrants defines accounts here written (.inl rfl) bracket _ _
  next type notPrimitive written =>
    have reference := FieldType.not_isPrimitive notPrimitive
    refine .bind (below type written reference) fun found later ends => ?_
    obtain ⟨evolves, gives⟩ := (finding _ (FieldType.length_loadName_lt written)).ends.ok ends
    cases found with
    | none => exact .pure none
    | some component =>
        refine .bind (.bindGet ?_) fun _ _ _ => .pure _
        exact justifies.arrayClass_warrants defines accounts (justifies.mono here evolves) written
          (.inr ⟨component, gives.leads component rfl⟩) (Class.head?_arrayName _) _ _
  · exact justifies.ordinary.internal _

theorem loadAny_warrants (here : holds loader name world) (limit : Nat)
    (enough : name.length ≤ limit) :
    world.Warrants reason (loadAny define limit loader name) := by
  induction limit generalizing name world with
  | zero =>
      refine justifies.loadNamed_warrants defines accounts here ?_
      rw [← String.length_toList, Nat.le_zero, List.length_eq_zero_iff] at enough
      rw [enough]
      exact nofun
  | succ limit inductionHypothesis =>
      rw [loadAny]
      split
      next bracket =>
        apply answering_warrants
        apply Warrants.bindGet
        split
        · exact .pure _
        · refine justifies.loadArray_warrants defines accounts here (fun key shorter => ?_)
            fun type written reference => ?_
          · exact loadAny_finding defines limit loader key (by omega) (justifies.sound here)
          · have shorter := FieldType.length_loadName_lt written
            exact inductionHypothesis (justifies.component here written reference) (by omega)
      next plain => exact justifies.loadNamed_warrants defines accounts here plain

end Names

/-! ### Loading -/

theorem accounts_loadWithin (depth : Nat) : Accounts reason holds (loadWithin depth) := by
  induction depth with
  | zero =>
      intro loader name world here
      exact justifies.loadAny_warrants (defines_throw _)
        (fun _ _ _ _ _ _ _ _ _ => justifies.ordinary.internal _) here _ (Nat.le_refl _)
  | succ depth inductionHypothesis =>
      intro loader name world here
      have finds := loadWithin_finds depth
      exact justifies.loadAny_warrants (defines_defineFrom finds)
        (justifies.accountsDefined inductionHypothesis finds) here _ (Nat.le_refl _)

theorem accounts_load : Accounts reason holds World.load := by
  intro loader name world here
  exact .bindGet (justifies.accounts_loadWithin _ loader name world here)

end Justifies
end JavaMachine.World
