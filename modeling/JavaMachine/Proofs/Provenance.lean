import JavaMachine.Proofs.Computation
import JavaMachine.Proofs.Files
import JavaMachine.Resolution

/-!
# Where errors come from

Errors about operands, receivers, results and the lengths of arrays come from what an instruction
itself does and from nowhere else: whatever is loaded, linked and resolved on its way fails with
errors of other kinds.
-/

namespace JavaMachine

/-- A broken assumption about an operand, a receiver, a result or the lengths of nested arrays. -/
def InternalError.OfExecution : InternalError → Prop
  | stackUnderflow | wrongOperand _ _ | voidOperand | noReceiver | voidReturned _ _
  | nothingReturned _ | wrongReturned _ _ | noLengthLeft | dimensionsLeft _ _ => True
  | _ => False

/-- An error about an operand, a receiver, a result or the lengths of nested arrays. -/
def Error.OfExecution : Error → Prop
  | internal cause => cause.OfExecution
  | linkage _ | runtime _ => False

variable {σ α β : Type}

/-- The computation fails with errors of a kind only, wherever it starts. -/
structure Raises (errors : Error → Prop) (action : ExceptT Error (StateM σ) α) : Prop where
  raises : ∀ start error, (runFrom start action).1 = .error error → errors error

namespace Raises

variable {errors : Error → Prop} {action : ExceptT Error (StateM σ) α}

/-- A computation that does not fail. -/
theorem of_ok (ok : ∀ start, ∃ result, (runFrom start action).1 = .ok result) :
    Raises errors action := by
  constructor
  intro start error fails
  obtain ⟨result, succeeds⟩ := ok start
  rw [succeeds] at fails
  cases fails

theorem pure (result : α) : Raises errors (Pure.pure result : ExceptT Error (StateM σ) α) :=
  of_ok fun _ => ⟨result, rfl⟩

theorem get : Raises errors (MonadState.get : ExceptT Error (StateM σ) σ) :=
  of_ok fun start => ⟨start, rfl⟩

theorem modifyGet (change : σ → α × σ) :
    Raises errors (MonadState.modifyGet change : ExceptT Error (StateM σ) α) :=
  of_ok fun start => ⟨(change start).1, rfl⟩

theorem modify (change : σ → σ) :
    Raises errors (modify change : ExceptT Error (StateM σ) PUnit) :=
  of_ok fun _ => ⟨⟨⟩, rfl⟩

theorem throw {error : Error} (allowed : errors error) :
    Raises errors (MonadExcept.throw error : ExceptT Error (StateM σ) α) := by
  constructor
  intro start other fails
  cases fails
  exact allowed

theorem ofExcept {outcome : Except Error α}
    (allowed : ∀ error, outcome = .error error → errors error) :
    Raises errors (ofExcept outcome : ExceptT Error (StateM σ) α) := by
  cases outcome with
  | ok result => exact pure result
  | error error => exact throw (allowed error rfl)

/-- What goes on needs to be looked at only after results that can be given. -/
theorem bindGiven {next : α → ExceptT Error (StateM σ) β} (first : Raises errors action)
    (rest : ∀ start result later, runFrom start action = (.ok result, later) →
      Raises errors (next result)) : Raises errors (action >>= next) := by
  constructor
  intro start error fails
  rcases ends : runFrom start action with ⟨own | result, middle⟩
  · rw [runFrom_bind_error ends] at fails
    cases fails
    exact first.raises start error (congrArg Prod.fst ends)
  · rw [runFrom_bind_ok ends] at fails
    exact (rest start result middle ends).raises middle error fails

theorem bind {next : α → ExceptT Error (StateM σ) β} (first : Raises errors action)
    (rest : ∀ result, Raises errors (next result)) : Raises errors (action >>= next) :=
  first.bindGiven fun _ result _ _ => rest result

theorem tryCatch {handler : Error → ExceptT Error (StateM σ) α} (tried : Raises errors action)
    (handling : ∀ error, errors error → Raises errors (handler error)) :
    Raises errors (MonadExcept.tryCatch action handler) := by
  constructor
  intro start error fails
  rcases ends : runFrom start action with ⟨own | result, middle⟩
  · rw [runFrom_tryCatch_error ends] at fails
    have allowed := tried.raises start own (congrArg Prod.fst ends)
    exact (handling own allowed).raises middle error fails
  · rw [runFrom_tryCatch_ok ends] at fails
    cases fails

theorem map {change : α → β} (raises : Raises errors action) :
    Raises errors (change <$> action) := by
  rw [map_eq_pure_bind]
  exact raises.bind fun _ => pure _

theorem mono {others : Error → Prop} (raises : Raises errors action)
    (implies : ∀ error, errors error → others error) : Raises others action :=
  ⟨fun start error fails => implies error (raises.raises start error fails)⟩

end Raises

/-! ### Work on worlds -/

/-- The computation fails with no error of the execution of an instruction. -/
abbrev Blameless (action : WorldM α) : Prop := Raises (fun error => ¬ error.OfExecution) action

theorem Blameless.ofLinking (outcome : Except LinkageError α) :
    Blameless (WorldM.ofLinking outcome) := by
  cases outcome with
  | ok result => exact .pure result
  | error cause => exact .throw not_false

/-- A way of loading that fails with no error of execution. -/
def Load.Blameless (load : Load) : Prop := ∀ loader name, JavaMachine.Blameless (load loader name)

namespace World

theorem allocateInstance_blameless (id : ClassId) (attachment : Attachment) :
    Blameless (allocateInstance id attachment) := by
  refine .bind .get fun world => ?_
  dsimp only
  split
  · exact .throw not_false
  · split
    · exact .throw not_false
    · exact .modifyGet _

theorem installMirror_blameless (mirrorClass target : ClassId) :
    Blameless (installMirror mirrorClass target) :=
  .bind (allocateInstance_blameless _ _) fun _ => .modify _

theorem installMissingMirrors_blameless (mirrorClass : ClassId) (targets : List ClassId) :
    Blameless (installMissingMirrors mirrorClass targets) := by
  induction targets with
  | nil => exact .pure _
  | cons target rest inductionHypothesis =>
      refine .bind .get fun world => ?_
      dsimp only
      split
      · exact .bind (installMirror_blameless mirrorClass target) fun _ => inductionHypothesis
      · exact inductionHypothesis

theorem ensureMirror_blameless (id : ClassId) : Blameless (ensureMirror id) := by
  refine .bind .get fun world => ?_
  dsimp only
  split
  · split
    · refine .bind (installMirror_blameless id id) fun _ => .bind .get fun later => ?_
      exact installMissingMirrors_blameless id _
    · split
      · exact installMirror_blameless _ id
      · exact .pure _
  · exact .pure _

theorem advance_blameless (id : ClassId) (next : ClassState) : Blameless (advance id next) := by
  refine .bind .get fun world => ?_
  dsimp only
  split
  · exact .modify _
  · exact .throw not_false

/-- A name is settled as a definition says that fails with no error of execution. -/
theorem getOrDefine_blameless (loader : LoaderId) (name : String)
    {define : WorldM (Option ClassId)} (defines : Blameless define) :
    Blameless (getOrDefine loader name define) := by
  refine .bind .get fun world => ?_
  dsimp only
  split
  · exact .pure _
  · split
    · exact .throw not_false
    · refine .bind (.modify _) fun _ => ?_
      refine .bind (.tryCatch defines fun _ allowed => .bind (.modify _) fun _ => .throw allowed)
        fun found => ?_
      exact .bind (.modify _) fun _ => .pure _

theorem answering_blameless (loader : LoaderId) (name : String)
    {request : WorldM (Option ClassId)} (requests : Blameless request) :
    Blameless (answering loader name request) :=
  ⟨fun world error fails => requests.raises world error fails⟩

end World

/-! ### Linking -/

section Linking

variable {load : Load} (loads : load.Blameless)
include loads

theorem Load.required_blameless (loader : LoaderId) (name : String) :
    JavaMachine.Blameless (load.required loader name) := by
  refine .bind (loads loader name) fun found => ?_
  split
  · exact .pure _
  · exact .throw not_false

theorem Load.intern_blameless (text : String) : JavaMachine.Blameless (load.intern text) := by
  refine .bind .get fun world => ?_
  split
  · exact .pure _
  · refine .bind (load.required_blameless loads _ _) fun _ => ?_
    exact .bind (World.allocateInstance_blameless _ _) fun _ => .modifyGet _

namespace World

theorem linkSuperclass_blameless (loader : LoaderId) (name : String) (file : ClassFile) :
    Blameless (linkSuperclass load loader name file) := by
  unfold linkSuperclass
  dsimp only
  split
  · split
    · exact .pure _
    · exact .throw not_false
  · split
    · exact .throw not_false
    · refine .bind (Blameless.ofLinking _) fun superName => ?_
      refine .bind (load.required_blameless loads _ _) fun found => .bind .get fun world => ?_
      split
      · exact .throw not_false
      · split
        · exact .throw not_false
        · split
          · exact .throw not_false
          · exact .pure _

theorem linkInterfaces_blameless (loader : LoaderId) (name : String) (file : ClassFile)
    (indices : List UInt16) (known : Table String ClassId) :
    Blameless (linkInterfaces load loader name file indices known) := by
  induction indices generalizing known with
  | nil => exact .pure _
  | cons index rest inductionHypothesis =>
      refine .bind (Blameless.ofLinking _) fun interfaceName => ?_
      refine .bind (load.required_blameless loads _ _) fun found => .bind .get fun world => ?_
      dsimp only
      split
      · exact .throw not_false
      · split
        · exact .throw not_false
        · exact .bind (inductionHypothesis _) fun _ => .pure _

theorem initialValue_blameless (file : ClassFile) (field : Field) :
    Blameless (initialValue load file field) := by
  rw [initialValue_eq]
  refine .bind (Blameless.ofLinking _) fun first => ?_
  cases first with
  | plain value => exact .pure value
  | string text => exact .bind (load.intern_blameless loads text) fun _ => .pure _

theorem linkFields_blameless (file : ClassFile) (owner : ClassId) (name : String)
    (members : List (Member FieldFlags)) (layout : FieldLayout) (static : Array Value) :
    Blameless (linkFields load file owner name members layout static) := by
  induction members generalizing layout static with
  | nil => exact .pure _
  | cons member rest inductionHypothesis =>
      refine .bind (Blameless.ofLinking _) fun field => ?_
      refine .bind (Blameless.ofLinking _) fun layout => ?_
      split
      · exact .bind (initialValue_blameless loads file field) fun _ => inductionHypothesis _ _
      · exact inductionHypothesis _ _

theorem linkDeclared_blameless (id : ClassId) (loader : LoaderId) (name : String)
    (file : ClassFile) : Blameless (linkDeclared load id loader name file) := by
  refine .bind (linkSuperclass_blameless loads _ _ _) fun superclass => .bind .get fun world => ?_
  refine .bind (linkInterfaces_blameless loads _ _ _ _ _) fun interfaces =>
    .bind .get fun later => ?_
  refine .bind (Blameless.ofLinking _) fun methods => ?_
  refine .bind (linkFields_blameless loads _ _ _ _ _ _) fun fields => ?_
  exact .bind (Blameless.ofLinking _) fun attributes => .pure _

theorem linkWith_blameless (id : ClassId) : Blameless (linkWith load id) := by
  refine .bind .get fun world => ?_
  dsimp only
  split
  · exact .throw not_false
  · split
    · exact .throw not_false
    · refine .tryCatch ?_ fun _ allowed => .bind (.modify _) fun _ => .throw allowed
      refine .bind (linkDeclared_blameless loads _ _ _ _) fun linked => ?_
      exact .bind (.modify _) fun _ => advance_blameless id .linked

/-! ### Loading -/

theorem defineClass_blameless (loader : LoaderId) (name : String) (file : ClassFile) :
    Blameless (defineClass load loader name file) := by
  refine .bind (Blameless.ofLinking _) fun type => ?_
  have adding : Blameless do
      let id ← modifyGet fun world => world.addType type
      linkWith load id
      ensureMirror id
      return id := by
    refine .bind (.modifyGet _) fun id => .bind (linkWith_blameless loads id) fun _ => ?_
    exact .bind (ensureMirror_blameless id) fun _ => .pure _
  dsimp only
  split
  · exact .bind (.throw not_false) fun _ => adding
  · exact adding

theorem defineFrom_blameless (loader : LoaderId) (name : String) (sources : List Source) :
    Blameless (defineFrom load loader name sources) := by
  induction sources with
  | nil => exact .pure _
  | cons source rest inductionHypothesis =>
      refine .bind (Blameless.ofLinking _) fun found => ?_
      split
      · exact .bind (defineClass_blameless loads loader name _) fun _ => .pure _
      · exact inductionHypothesis

theorem arraySupertypes_blameless : Blameless (arraySupertypes load) := by
  refine .bind (load.required_blameless loads _ _) fun superclass => ?_
  refine .bind (loads _ _) fun cloneable => ?_
  exact .bind (loads _ _) fun serializable => .pure _

/-- An array class is defined by what it inherits and its own kind. -/
theorem arrayClass_blameless (directory loader : LoaderId) (name : String) (flags : ClassFlags)
    (kind : ArraySupertypes → ClassKind) : Blameless (arrayClass directory name do
      let supertypes ← arraySupertypes load
      addArrayClass name flags loader (kind supertypes)) := by
  refine .bind (getOrDefine_blameless _ _ ?_) fun found => ?_
  · refine .bind (arraySupertypes_blameless loads) fun supertypes =>
      .bind (.modifyGet _) fun id => ?_
    exact .bind (ensureMirror_blameless id) fun _ => .pure _
  · split
    · exact .pure _
    · exact .throw not_false

theorem loadArray_blameless {component : String → WorldM (Option ClassId)}
    (components : ∀ name, Blameless (component name)) (name : String) :
    Blameless (loadArray load component name) := by
  unfold loadArray
  split
  · exact .throw not_false
  · exact .bind (arrayClass_blameless loads _ _ _ _ _) fun _ => .pure _
  · refine .bind (components _) fun found => ?_
    split
    · refine .bind (.bind .get fun world => ?_) fun _ => .pure _
      exact arrayClass_blameless loads _ _ _ _ _
    · exact .pure _
  · exact .throw not_false

theorem loadAlong_blameless (loaders : List LoaderId) (name : String) :
    Blameless (loadAlong load loaders name) := by
  induction loaders with
  | nil => exact .pure _
  | cons loader parents inductionHypothesis =>
      apply answering_blameless
      refine .bind .get fun world => ?_
      split
      · exact .pure _
      · refine .bind inductionHypothesis fun found => ?_
        split
        · exact .pure _
        · exact getOrDefine_blameless loader name (loads loader name)

theorem loadNamed_blameless : (loadNamed load).Blameless :=
  fun _ name => .bind .get fun _ => loadAlong_blameless loads _ name

theorem loadAny_blameless (limit : Nat) : (loadAny load limit).Blameless := by
  induction limit with
  | zero => exact loadNamed_blameless loads
  | succ limit inductionHypothesis =>
      intro loader name
      unfold loadAny
      split
      · apply answering_blameless
        refine .bind .get fun world => ?_
        split
        · exact .pure _
        · exact loadArray_blameless (loadNamed_blameless loads) (inductionHypothesis loader) name
      · exact loadNamed_blameless loads loader name

end World
end Linking

namespace World

theorem loadWithin_blameless (depth : Nat) : (loadWithin depth).Blameless := by
  induction depth with
  | zero =>
      have refuses : Load.Blameless fun _ _ => throw (.internal .definitionsNestedTooDeep) :=
        fun _ _ => .throw not_false
      exact fun loader name => loadAny_blameless refuses _ loader name
  | succ depth inductionHypothesis =>
      intro loader name
      refine loadAny_blameless (fun definer className => ?_) _ loader name
      exact .bind .get fun world => defineFrom_blameless inductionHypothesis definer className _

/-- Loading fails with no error of execution. -/
theorem load_blameless : load.Blameless :=
  fun loader name => .bind .get fun _ => loadWithin_blameless _ loader name

theorem require_blameless (loader : LoaderId) (name : String) : Blameless (require loader name) :=
  load.required_blameless load_blameless loader name

/-! ### Resolving -/

theorem attachedPool_blameless {world : World} {id : ClassId} {error : Error}
    (fails : world.attachedPool id = .error error) : ¬ error.OfExecution := by
  unfold attachedPool at fails
  dsimp only at fails
  split at fails
  · cases fails
    exact not_false
  · split at fails
    · cases fails
      exact not_false
    · cases fails

theorem constantAt_blameless {world : World} {id : ClassId} {index : UInt16} {error : Error}
    (fails : world.constantAt id index = .error error) : ¬ error.OfExecution := by
  unfold constantAt at fails
  split at fails
  next attached =>
    cases fails
    exact attachedPool_blameless attached
  next =>
    split at fails
    · cases fails
    · cases fails
      exact not_false

theorem tagAt_blameless {world : World} {id : ClassId} {index : UInt16} {error : Error}
    (fails : world.tagAt id index = .error error) : ¬ error.OfExecution := by
  unfold tagAt at fails
  cases known : world.constantAt id index with
  | error own =>
      rw [known] at fails
      cases fails
      exact constantAt_blameless known
  | ok constant =>
      rw [known] at fails
      cases fails

theorem lookUp_blameless (id : ClassId) (kind : ConstantKind) (index : UInt16)
    {find : Constant → WorldM kind.Meaning} (finding : ∀ constant, Blameless (find constant)) :
    Blameless (lookUp id kind index find) := by
  refine .bind .get fun world => ?_
  refine .bind (.ofExcept fun _ => constantAt_blameless) fun constant => ?_
  split
  · exact .throw not_false
  · refine .bind (.ofExcept fun _ => attachedPool_blameless) fun attached => ?_
    dsimp only
    split
    · exact .pure _
    · exact .bind (finding constant) fun result => .bind (.modify _) fun _ => .pure _

theorem resolveText_blameless (id : ClassId) (index : UInt16) :
    Blameless (resolveText id index) := by
  apply lookUp_blameless
  intro constant
  split
  · split
    · exact .pure _
    · exact .throw not_false
  · exact .throw not_false

theorem resolveClass_blameless (id : ClassId) (index : UInt16) :
    Blameless (resolveClass id index) := by
  apply lookUp_blameless
  intro constant
  split
  · refine .bind (resolveText_blameless id _) fun name => .bind .get fun world => ?_
    exact require_blameless _ name
  · exact .throw not_false

theorem resolveNameAndType_blameless (id : ClassId) (index : UInt16) :
    Blameless (resolveNameAndType id index) := by
  apply lookUp_blameless
  intro constant
  split
  · refine .bind (resolveText_blameless id _) fun name => ?_
    exact .bind (resolveText_blameless id _) fun descriptor => .pure _
  · exact .throw not_false

theorem findReferredMethod_blameless (id : ClassId) (owner nameAndType : UInt16) :
    Blameless (findReferredMethod id owner nameAndType) := by
  refine .bind (resolveClass_blameless id owner) fun type => ?_
  refine .bind (resolveNameAndType_blameless id nameAndType) fun names => .bind .get fun world => ?_
  dsimp only
  split
  · exact .throw not_false
  · exact .pure _

theorem resolveMethod_blameless (id : ClassId) (index : UInt16) :
    Blameless (resolveMethod id index) := by
  apply lookUp_blameless
  intro constant
  split
  · exact findReferredMethod_blameless id _ _
  · exact .throw not_false

theorem resolveInterfaceMethod_blameless (id : ClassId) (index : UInt16) :
    Blameless (resolveInterfaceMethod id index) := by
  apply lookUp_blameless
  intro constant
  split
  · exact findReferredMethod_blameless id _ _
  · exact .throw not_false

end World
end JavaMachine
