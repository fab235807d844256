import JavaMachine.Proofs.FieldLayout
import JavaMachine.Proofs.Files

/-!
# What is wrong with class files

Looking for the file of a class and reading its declarations fails where files cannot be read or are
damaged, and where what they declare does not fit together. No other class has a part in that, so
such a failure is never one of a definition that comes to need itself; and whether a member is
declared twice is known to the tables of a class only.
-/

namespace JavaMachine

variable {α β : Type}

/-- Neither that a definition comes to need itself, nor that a class declares a member twice, nor
what a method has raised by name. -/
def LinkageError.IsOrdinary : LinkageError → Prop
  | circularity _ | duplicateMethod _ _ | duplicateField _ _ | raised _ _ => False
  | _ => True

/-- An ordinary cause, or a broken assumption. -/
def Error.IsOrdinary : Error → Prop
  | linkage cause => cause.IsOrdinary
  | internal _ => True
  | runtime _ => False

/-- The result is there unless something ordinary is wrong. -/
def FailsOrdinarily (outcome : Except LinkageError α) : Prop :=
  ∀ cause, outcome = .error cause → cause.IsOrdinary

namespace FailsOrdinarily

theorem ok (result : α) : FailsOrdinarily (.ok result) :=
  fun _ same => by cases same

theorem error {cause : LinkageError} (isOrdinary : cause.IsOrdinary) :
    FailsOrdinarily (.error cause : Except LinkageError α) :=
  fun _ same => by cases same; exact isOrdinary

theorem bind {outcome : Except LinkageError α} {next : α → Except LinkageError β}
    (first : FailsOrdinarily outcome)
    (rest : ∀ result, outcome = .ok result → FailsOrdinarily (next result)) :
    FailsOrdinarily (outcome >>= next) := by
  cases outcome with
  | error cause => exact .error (first cause rfl)
  | ok result => exact rest result rfl

theorem map {outcome : Except LinkageError α} (change : α → β) (first : FailsOrdinarily outcome) :
    FailsOrdinarily (outcome.map change) := by
  cases outcome with
  | error cause => exact .error (first cause rfl)
  | ok result => exact .ok _

/-- A list is gone through step by step. -/
theorem foldlM {step : β → α → Except LinkageError β}
    (steps : ∀ state element, FailsOrdinarily (step state element)) (elements : List α)
    (state : β) : FailsOrdinarily (elements.foldlM step state) := by
  induction elements generalizing state with
  | nil => exact .ok state
  | cons element rest inductionHypothesis =>
      rw [List.foldlM_cons]
      exact .bind (steps state element) fun state _ => inductionHypothesis state

end FailsOrdinarily

/-- A bind fails in its first part or goes on from there. -/
theorem Except.bind_error {ε : Type} {first : Except ε α} {next : α → Except ε β} {error : ε}
    (fails : (first >>= next) = .error error) :
    first = .error error ∨ ∃ middle, first = .ok middle ∧ next middle = .error error := by
  cases first with
  | error cause =>
      cases fails
      exact .inl rfl
  | ok middle => exact .inr ⟨middle, rfl, fails⟩

/-! ### Sources -/

theorem Source.find?_ordinary (source : Source) (className : String) :
    FailsOrdinarily (source.find? className) := by
  have parsed (bytes : List UInt8) : FailsOrdinarily (parseNamed className bytes) := by
    rw [parseNamed]
    split
    · exact .ok _
    · exact .error trivial
  cases source with
  | memory classes => exact .ok _
  | directory files base =>
      rw [find?]
      split
      · exact .map some (parsed _)
      · exact .ok none
      · exact .error trivial
  | archive path folder content =>
      rw [find?]
      split
      · exact .map some (parsed _)
      · exact .ok none
      · exact .error trivial

theorem Class.allocate_ordinary (file : ClassFile) (loader : LoaderId) :
    FailsOrdinarily (Class.allocate file loader) := by
  rw [Class.allocate]
  split
  · exact .ok _
  · exact .error trivial

/-! ### Declarations -/

section Declarations

variable (file : ClassFile)

theorem ClassFile.requireText_ordinary (index : UInt16) :
    FailsOrdinarily (file.requireText index) := by
  rw [requireText]
  split
  · exact .ok _
  · exact .error trivial

theorem ClassFile.requireClassName_ordinary (index : UInt16) :
    FailsOrdinarily (file.requireClassName index) := by
  rw [requireClassName]
  split
  · exact .ok _
  · exact .error trivial

theorem Attribute.readAs_ordinary (block : Attribute) (reader : Reader α) :
    FailsOrdinarily (block.readAs reader) := by
  rw [readAs]
  split
  · exact .ok _
  · exact .error trivial

theorem Method.codeIn_ordinary (blocks : List Attribute) (found : Option Code) :
    FailsOrdinarily (codeIn file blocks found) := by
  induction blocks generalizing found with
  | nil => exact .ok found
  | cons block rest inductionHypothesis =>
      refine .bind (file.requireText_ordinary _) fun name _ => ?_
      split
      · exact .bind (block.readAs_ordinary _) fun code _ => inductionHypothesis (some code)
      · exact inductionHypothesis found

theorem Method.ofMember_ordinary (owner : ClassId) (ownerName : String)
    (member : Member MethodFlags) : FailsOrdinarily (ofMember file owner ownerName member) := by
  refine .bind (file.requireText_ordinary _) fun name _ => ?_
  refine .bind (file.requireText_ordinary _) fun descriptor _ => ?_
  split
  · exact .error trivial
  · exact .bind (codeIn_ordinary file _ none) fun _ _ => .ok _

theorem Field.constantIn_ordinary (blocks : List Attribute) (found : Option UInt16) :
    FailsOrdinarily (constantIn file blocks found) := by
  induction blocks generalizing found with
  | nil => exact .ok found
  | cons block rest inductionHypothesis =>
      refine .bind (file.requireText_ordinary _) fun name _ => ?_
      split
      · exact .bind (block.readAs_ordinary _) fun index _ => inductionHypothesis (some index)
      · exact inductionHypothesis found

theorem Field.ofMember_ordinary (owner : ClassId) (ownerName : String)
    (member : Member FieldFlags) : FailsOrdinarily (ofMember file owner ownerName member) := by
  refine .bind (file.requireText_ordinary _) fun name _ => ?_
  refine .bind (file.requireText_ordinary _) fun descriptor _ => ?_
  split
  · exact .error trivial
  · exact .bind (constantIn_ordinary file _ none) fun _ _ => .ok _

theorem Field.firstValue?_ordinary (field : Field) : FailsOrdinarily (field.firstValue? file) := by
  have mismatch (index : UInt16) :
      FailsOrdinarily
        (.error (.constantMismatch index field.key) : Except LinkageError FirstValue) :=
    .error trivial
  rw [firstValue?]
  split
  · split
    · split
      · exact .ok _
      · exact mismatch _
    · exact .ok _
    · exact .ok _
    · exact .ok _
    · split
      · exact .bind (file.requireText_ordinary _) fun text _ => .ok _
      · exact mismatch _
    · exact mismatch _
  · exact .ok _

theorem ClassAttributes.ofFile_ordinary : FailsOrdinarily (ClassAttributes.ofFile file) := by
  refine FailsOrdinarily.foldlM (fun attributes block => ?_) _ _
  refine .bind (file.requireText_ordinary _) fun name _ => ?_
  split
  · exact .bind (block.readAs_ordinary _) fun index _ =>
      .bind (file.requireText_ordinary index) fun _ _ => .ok _
  · exact .bind (block.readAs_ordinary _) fun index _ =>
      .bind (file.requireText_ordinary index) fun _ _ => .ok _
  · exact .bind (block.readAs_ordinary _) fun _ _ => .ok _
  · exact .bind (block.readAs_ordinary _) fun _ _ => .ok _
  · exact .bind (block.readAs_ordinary _) fun _ _ => .ok _
  · exact .ok attributes

end Declarations

/-! ### Tables -/

section Tables

variable {file : ClassFile} {owner : ClassId} {className : String} {cause : LinkageError}

theorem MethodTables.enter_error {tables : MethodTables} {method : Method}
    (fails : tables.enter className method = .error cause) :
    cause.IsOrdinary ∨ cause = .duplicateMethod className method.key ∧
      tables.declared.contains method.key := by
  unfold enter at fails
  dsimp only at fails
  split at fails
  next known =>
    cases fails
    exact .inr ⟨rfl, known⟩
  · split at fails
    · cases fails
    · split at fails
      · cases fails
      · split at fails
        · cases fails
          exact .inl trivial
        · cases fails

theorem MethodTables.enterAll_error {tables : MethodTables} {members : List (Member MethodFlags)}
    (fails : enterAll file owner className members tables = .error cause) :
    cause.IsOrdinary ∨ ∃ key, cause = .duplicateMethod className key := by
  induction members generalizing tables with
  | nil => cases fails
  | cons member rest inductionHypothesis =>
      rcases Except.bind_error fails with unread | ⟨method, _, fails⟩
      · exact .inl (Method.ofMember_ordinary file owner className member cause unread)
      · rcases Except.bind_error fails with refused | ⟨middle, _, fails⟩
        · exact (enter_error refused).imp_right fun repeated => ⟨_, repeated.1⟩
        · exact inductionHypothesis fails

/-- Building tables fails with something ordinary or because a method is declared twice. -/
theorem MethodTables.build_error {inherited : Table String Method}
    {interfaces : List (Table String Method)}
    (fails : build file owner className inherited interfaces = .error cause) :
    cause.IsOrdinary ∨ ∃ key, cause = .duplicateMethod className key := by
  rcases Except.bind_error fails with fails | ⟨_, _, fails⟩
  · exact enterAll_error fails
  · cases fails

theorem FieldLayout.add_error {layout : FieldLayout} {field : Field}
    (fails : layout.add className field = .error cause) :
    cause = .duplicateField className field.key ∧
      ((findSlot? layout.slots field.key).isSome ∨ layout.static.contains field.key) := by
  rw [add] at fails
  split at fails
  next known =>
    cases fails
    exact ⟨rfl, known⟩
  · split at fails <;> cases fails

/-- Adding fields fails with something ordinary or because a field is declared twice. -/
theorem FieldLayout.addAll_error {layout : FieldLayout} {members : List (Member FieldFlags)}
    (fails : addAll file owner className members layout = .error cause) :
    cause.IsOrdinary ∨ ∃ key, cause = .duplicateField className key := by
  induction members generalizing layout with
  | nil => cases fails
  | cons member rest inductionHypothesis =>
      rcases Except.bind_error fails with unread | ⟨field, _, fails⟩
      · exact .inl (Field.ofMember_ordinary file owner className member cause unread)
      · rcases Except.bind_error fails with refused | ⟨middle, _, fails⟩
        · exact .inr ⟨_, (add_error refused).1⟩
        · exact inductionHypothesis fails

end Tables
end JavaMachine
